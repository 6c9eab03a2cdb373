import Psych.Library.Plans
import Psych.Model.Sample
import Psych.Publish.Rows

/-!
# Redundant sessions

Every session of the provider is to get every mapped row, whatever becomes of the others. But an
exception of one submission leaves both loops, over the sessions and over the rows. So a refresh
follows the plan of all its attempts, row by row and session by session, up to the first
submission that throws, and reaches every session that could have taken a row exactly when no
such submission is before it (`independent_iff`).
-/

namespace Psych

/-! ## The plan of a refresh -/

/-- What the sessions and the rows of a refresh are to meet: a row that cannot be encoded
(`delivery` is `none`), or the turn of a session. -/
structure Attempt where
  row : Nat
  session : Nat
  delivery : Option Delivery
deriving DecidableEq

/-- The attempt that ends the refresh. -/
def Attempt.fails (attempt : Attempt) : Bool :=
  attempt.delivery = none || attempt.delivery = some .threw

/-- What is seen of an attempt: a turn. -/
def Attempt.seen (attempt : Attempt) : Option (Nat × Nat × Delivery) :=
  attempt.delivery.map fun delivery => (attempt.row, attempt.session, delivery)

/-- One attempt is made before another. -/
def Attempt.Before (a b : Attempt) : Prop :=
  a.row < b.row ∨ (a.row = b.row ∧ a.session < b.session)

def Turn.seen (turn : Turn) : Nat × Nat × Delivery :=
  (turn.message.row, turn.session, turn.delivery)

def Provider.seen (p : Provider) : List (Nat × Nat × Delivery) := p.turns.map Turn.seen

/-- The `i`th session is muted. -/
def Provider.mutedAt (p : Provider) (i : Nat) : Bool :=
  match p.sessions[i]? with
  | none => true
  | some session => session.isMuted

/-- What becomes of a message on the turn of a session. -/
def turnDelivery (muted submit : Bool) : Delivery :=
  if muted then .dropped else if submit then .submitted else .threw

/-- The turns of the row `k`. -/
def turnsOf (provider : Provider) (submits : Nat → Bool) (k : Nat) : List Attempt :=
  (List.range provider.sessions.length).map fun i =>
    ⟨k, i, some (turnDelivery (provider.mutedAt i) (submits i))⟩

instance (resource : Resource) (row : Text × List Value) : Decidable (mapped resource row) :=
  inferInstanceAs (Decidable (_ = true))

instance (resource : Resource) (table : Table) (values : List Value) :
    Decidable (indexed resource table values) :=
  decidable_of_iff _ indexed_iff.symm

/-- The attempts for a row with its index. -/
def rowAttempts (resource : Resource) (table : Table)
    (submits : Nat → Nat → Bool) (provider : Provider) (row : (Text × List Value) × Nat) :
    List Attempt :=
  if mapped resource row.1 then
    if indexed resource table row.1.2 then turnsOf provider (submits row.2) row.2
    else [⟨row.2, 0, none⟩]
  else []

/-- The outcomes of the RFA calls for a row, where only submissions can throw. -/
def submitting (getLock : Nat → Bool) (submits : Nat → Nat → Bool) (k : Nat) : RowCalls :=
  { getLock := getLock k, session := fun i => { submit := submits k i } }

/-! ## One message -/

variable {provider : Provider}

/-- The provider in the course of a refresh without RFA events. -/
structure Provider.Quiet (provider p : Provider) : Prop where
  wellFormed : p.WellFormed
  grows : provider.Grows p
  muted : ∀ i, p.mutedAt i = provider.mutedAt i

theorem Provider.Quiet.refl (h : provider.WellFormed) : provider.Quiet provider :=
  ⟨h, .refl _, fun _ => rfl⟩

/-- A send leaves the muting as it is. -/
theorem send_isMuted (ok : Bool) (message : Message) (token : Token) (s : Session) :
    (s.send ok message token).2.isMuted = s.isMuted := by
  unfold Session.send Session.submit
  split_ifs <;> rfl

theorem giveTo_follows (stream : Nat) (message : Message) (submit : Bool) {i : Nat} {p : Provider}
    (hquiet : provider.Quiet p) (hstream : stream < p.streams.stream.length)
    (hi : i < p.sessions.length) :
    Faults.Follows Provider.seen Attempt.fails Attempt.seen
        [⟨message.row, i, some (turnDelivery (provider.mutedAt i) submit)⟩] p
        (p.giveTo stream message submit i) ∧
      provider.Quiet (p.giveTo stream message submit i).2 := by
  have hgrows := giveTo_grows stream message submit i p
  have hwell := wellFormed_of_grows hgrows hquiet.wellFormed
  have hsession := List.getElem?_eq_getElem hi
  have hitem := List.getElem?_eq_getElem hstream
  have htoken : i < (p.streams.stream[stream]).token.length := by
    rw [hquiet.wellFormed.token _ (List.getElem_mem hstream)]
    exact hi
  have hmuted : p.sessions[i].isMuted = provider.mutedAt i := by
    rw [← hquiet.muted i, Provider.mutedAt, hsession]
  have homm := (hquiet.wellFormed.session hsession).2
  have hgive : p.giveTo stream message submit i =
      let token := (p.streams.stream[stream]).token[i]
      let r := p.sessions[i].send submit message token
      (r.1, { p with
        sessions := p.sessions.set i r.2
        turns := ⟨i, message, delivery p.sessions[i] r.1⟩ :: p.turns }) := by
    unfold Provider.giveTo
    rw [hsession, hitem]
    simp only [Option.bind_some, List.getElem?_eq_getElem htoken]
  refine ⟨?_, hwell, hquiet.grows.trans hgrows, fun j => ?_⟩
  · rw [hgive]
    dsimp only
    generalize hsend : p.sessions[i].send submit message (p.streams.stream[stream]).token[i] = r
    have hdelivery : delivery p.sessions[i] r.1 = turnDelivery (provider.mutedAt i) submit ∧
        (Faults.succeeded r = true ↔ turnDelivery (provider.mutedAt i) submit ≠ .threw) := by
      rw [← hsend, ← hmuted]
      unfold Session.send Session.submit delivery turnDelivery
      cases p.sessions[i].isMuted <;> cases submit <;> simp [homm]
    obtain ⟨heq, hok⟩ := hdelivery
    refine ⟨?_, ?_⟩
    · rw [heq]
      cases turnDelivery (provider.mutedAt i) submit <;>
        simp [Provider.seen, Turn.seen, Faults.upto, Attempt.fails, Attempt.seen]
    · rw [List.forall_mem_singleton]
      apply hok.trans
      cases turnDelivery (provider.mutedAt i) submit <;> simp [Attempt.fails]
  · rw [hgive, ← hquiet.muted j]
    unfold Provider.mutedAt
    dsimp only
    rw [List.getElem?_set]
    by_cases hij : i = j
    · subst hij
      rw [if_pos rfl, if_pos hi, hsession]
      exact send_isMuted _ _ _ _
    · rw [if_neg hij]

/-- A send follows the turns of its row. -/
theorem send_follows {stream : Nat} (message : Message) (submits : Nat → Bool) {p : Provider}
    (hquiet : provider.Quiet p) (hstream : stream < p.streams.stream.length) :
    Faults.Follows Provider.seen Attempt.fails Attempt.seen
        (turnsOf provider submits message.row) p
        (p.send stream message fun i => { submit := submits i }) ∧
      provider.Quiet (p.send stream message fun i => { submit := submits i }).2 := by
  have hloop := Faults.Follows.forEach Provider.seen Attempt.fails Attempt.seen
    (f := Provider.sendOn stream message fun i => { submit := submits i })
    (g := fun i => [⟨message.row, i, some (turnDelivery (provider.mutedAt i) (submits i))⟩])
    (fun q => provider.Quiet q ∧ p.Grows q) (l := List.range p.sessions.length)
    (fun i hi q hq => by
      have hlen := congrArg List.length hq.2.streams.shape
      simp only [List.length_map] at hlen
      obtain ⟨hfollows, hquiet'⟩ := giveTo_follows stream message (submits i) hq.1
        (by omega) (by rw [hq.2.length]; exact List.mem_range.mp hi)
      exact ⟨hfollows, hquiet', hq.2.trans (giveTo_grows stream message _ i q)⟩)
    ⟨hquiet, .refl p⟩
  have hplan : turnsOf provider submits message.row = (List.range p.sessions.length).flatMap
      fun i => [⟨message.row, i, some (turnDelivery (provider.mutedAt i) (submits i))⟩] := by
    rw [hquiet.grows.length, ← List.map_eq_flatMap]
    rfl
  rw [hplan]
  unfold Provider.send
  cases hr : Faults.forEach (Provider.sendOn stream message fun i => { submit := submits i })
      (List.range p.sessions.length) p with
  | mk r q =>
    rw [hr] at hloop
    cases r with
    | error e => exact ⟨⟨hloop.1.log, hloop.1.ok⟩, hloop.2.1⟩
    | ok _ =>
      obtain ⟨hwell, hgrows, hmuted⟩ := hloop.2.1
      refine ⟨⟨hloop.1.log, hloop.1.ok⟩, ⟨hwell.session, hwell.token⟩, ?_, hmuted⟩
      exact ⟨hgrows.streams, hgrows.length, hgrows.session, hgrows.turns⟩

/-! ## The refresh -/

variable {config : Config} {resource : Resource} {table : Table} {getLock : Nat → Bool}
  {submits : Nat → Nat → Bool}

/-- What is seen of a refresh. -/
def Publish.seen (s : Publish) : List (Nat × Nat × Delivery) := s.provider.seen

theorem sendRow_follows {row : (Text × List Value) × Nat} {s : Publish}
    (hquiet : provider.Quiet s.provider) (hcovers : s.provider.Covers resource) :
    Faults.Follows Publish.seen Attempt.fails Attempt.seen
        (rowAttempts resource table submits provider row) s
        (sendRow config resource table (submitting getLock submits) row s) ∧
      provider.Quiet
        (sendRow config resource table (submitting getLock submits) row s).2.provider := by
  unfold rowAttempts
  rcases sendRow_cases config resource table (submitting getLock submits) row s with
    ⟨hno, heq⟩ | ⟨_, hno, _⟩ | ⟨hmapped, topic, e, hwrite, heq⟩ |
    ⟨hmapped, topic, i, message, hwrite, hsent⟩
  · rw [heq, if_neg hno]
    exact ⟨⟨rfl, by simp⟩, hquiet⟩
  · exact absurd hcovers hno
  · have hno : ¬ indexed resource table row.1.2 := by
      rw [← (@writeFields_ok_iff resource table row.1.2 (submitting getLock submits row.2)
        (fun _ => rfl) rfl topic).1, hwrite]
      simp
    rw [heq, if_pos hmapped, if_neg hno]
    exact ⟨⟨rfl, by simp [Attempt.fails]⟩, hquiet⟩
  · have hindexed : indexed resource table row.1.2 :=
      (@writeFields_ok_iff resource table row.1.2 (submitting getLock submits row.2)
        (fun _ => rfl) rfl topic).1.mp hwrite
    obtain ⟨hfollows, hquiet'⟩ := send_follows message (submits row.2) hquiet
      hsent.stream
    rw [if_pos hmapped, if_pos hindexed, hsent.result]
    rw [hsent.index] at hfollows
    exact ⟨⟨hfollows.log, hfollows.ok⟩, hquiet'⟩

/-- The attempts of a refresh. -/
def attempts (resource : Resource) (table : Table) (submits : Nat → Nat → Bool)
    (provider : Provider) : List Attempt :=
  table.rows.zipIdx.flatMap (rowAttempts resource table submits provider)

/-- The turns of a refresh are the attempts up to the first that fails. -/
theorem sendRefresh_follows (config : Config) (table : Table) (getLock : Nat → Bool)
    (submits : Nat → Nat → Bool) (hready : provider.Ready resource) :
    (sendRefresh config resource table (submitting getLock submits) provider).2.seen =
      ((Faults.upto Attempt.fails (attempts resource table submits provider)).filterMap
        Attempt.seen).reverse := by
  have hstart := Provider.Quiet.refl (start_ready hready).wellFormed
  have hrun := Faults.Follows.forEach Publish.seen Attempt.fails Attempt.seen
    (f := sendRow config resource table (submitting getLock submits))
    (g := rowAttempts resource table submits (Publish.start provider).provider)
    (fun s => (Publish.start provider).provider.Quiet s.provider ∧ s.provider.Covers resource)
    (l := table.rows.zipIdx)
    (fun row _ s hs => by
      obtain ⟨hfollows, hquiet⟩ := sendRow_follows hs.1 hs.2
      exact ⟨hfollows, hquiet, covers_of_grows (sendRow_grows row s).1 hs.2⟩)
    (s := .start provider) ⟨hstart, hready.covers⟩
  have hlog := hrun.1.log
  rw [show Publish.seen (.start provider) = [] from rfl, List.append_nil] at hlog
  exact hlog

/-! ## The order of the attempts -/

theorem Attempt.Before.asymm (a b : Attempt) (h : a.Before b) : ¬ b.Before a := by
  unfold Attempt.Before at *
  omega

theorem mem_turnsOf {submits : Nat → Bool} {k : Nat} {attempt : Attempt} :
    attempt ∈ turnsOf provider submits k ↔ ∃ i < provider.sessions.length,
      attempt = ⟨k, i, some (turnDelivery (provider.mutedAt i) (submits i))⟩ := by
  simp only [turnsOf, List.mem_map, List.mem_range, eq_comm]

/-- The attempts of a row are its turns where it is encoded. -/
theorem mem_attempts {attempt : Attempt} :
    attempt ∈ attempts resource table submits provider ↔
      ∃ row, table.rows[attempt.row]? = some row ∧ mapped resource row ∧
        ((¬ indexed resource table row.2 ∧ attempt.session = 0 ∧ attempt.delivery = none) ∨
          (indexed resource table row.2 ∧ attempt.session < provider.sessions.length ∧
            attempt.delivery = some (turnDelivery (provider.mutedAt attempt.session)
              (submits attempt.row attempt.session)))) := by
  unfold attempts
  rw [List.mem_flatMap]
  constructor
  · rintro ⟨⟨row, k⟩, hrow, hmem⟩
    rw [List.mem_zipIdx_iff_getElem?] at hrow
    unfold rowAttempts at hmem
    split at hmem
    · rename_i hmapped
      split at hmem
      · rename_i hindexed
        obtain ⟨i, hi, rfl⟩ := mem_turnsOf.mp hmem
        exact ⟨row, hrow, hmapped, Or.inr ⟨hindexed, hi, rfl⟩⟩
      · rename_i hindexed
        obtain rfl := List.mem_singleton.mp hmem
        exact ⟨row, hrow, hmapped, Or.inl ⟨hindexed, rfl, rfl⟩⟩
    · cases hmem
  · rintro ⟨row, hrow, hmapped, hattempt⟩
    refine ⟨(row, attempt.row), List.mem_zipIdx_iff_getElem?.mpr hrow, ?_⟩
    obtain ⟨k, i, d⟩ := attempt
    dsimp only at hrow hattempt ⊢
    unfold rowAttempts
    rw [if_pos hmapped]
    rcases hattempt with ⟨hindexed, rfl, rfl⟩ | ⟨hindexed, hi, rfl⟩
    · rw [if_neg hindexed]
      exact List.mem_singleton_self _
    · rw [if_pos hindexed]
      exact mem_turnsOf.mpr ⟨i, hi, rfl⟩

theorem rowAttempts_row {row : (Text × List Value) × Nat} {attempt : Attempt}
    (h : attempt ∈ rowAttempts resource table submits provider row) : attempt.row = row.2 := by
  unfold rowAttempts at h
  split at h
  · split at h
    · obtain ⟨i, _, rfl⟩ := mem_turnsOf.mp h
      rfl
    · obtain rfl := List.mem_singleton.mp h
      rfl
  · cases h

/-- Attempts are made row by row, and session by session. -/
theorem attempts_sorted (resource : Resource) (table : Table) (submits : Nat → Nat → Bool)
    (provider : Provider) :
    (attempts resource table submits provider).Pairwise Attempt.Before := by
  unfold attempts
  rw [List.pairwise_flatMap]
  constructor
  · rintro ⟨row, k⟩ _
    unfold rowAttempts turnsOf
    split
    · split
      · rw [List.pairwise_map]
        exact List.pairwise_lt_range.imp fun hlt => Or.inr ⟨rfl, hlt⟩
      · exact List.pairwise_singleton _ _
    · exact List.Pairwise.nil
  · have hindices : table.rows.zipIdx.Pairwise fun row row' => row.2 < row'.2 := by
      rw [← List.pairwise_map (f := Prod.snd), List.zipIdx_map_snd]
      exact List.pairwise_lt_range'
    refine hindices.imp fun hlt a ha b hb => Or.inl ?_
    rw [rowAttempts_row ha, rowAttempts_row hb]
    exact hlt

/-! ## Independence -/

/-- The row `k` is due on the `i`th session: it is mapped, the session is not muted, and its own
submission of the row would not throw. -/
structure Due (resource : Resource) (table : Table) (submits : Nat → Nat → Bool)
    (provider : Provider) (k i : Nat) : Prop where
  row : ∃ row, table.rows[k]? = some row ∧ mapped resource row
  session : ∃ session, provider.sessions[i]? = some session ∧ session.isMuted = false
  submit : submits k i = true

/-- A row that is due on a session was submitted on it once. -/
def IndependentOnSend (resource : Resource) (table : Table) (submits : Nat → Nat → Bool)
    (provider : Provider) (s : Publish) : Prop :=
  ∀ k i, Due resource table submits provider k i →
    s.provider.turns.countP (fun turn => turn.seen = (k, i, .submitted)) = 1

/-- No submission that throws, and no row that cannot be encoded, comes before a row that is due
on a session. -/
def NoFailureBefore (resource : Resource) (table : Table) (submits : Nat → Nat → Bool)
    (provider : Provider) : Prop :=
  ∀ k i, Due resource table submits provider k i →
    (∀ k' ≤ k, ∀ row, table.rows[k']? = some row → mapped resource row →
      indexed resource table row.2) ∧
    ∀ k' i' row session, table.rows[k']? = some row → mapped resource row →
      provider.sessions[i']? = some session → session.isMuted = false →
        (k' < k ∨ (k' = k ∧ i' < i)) → submits k' i' = true

theorem mutedAt_eq_false_iff {i : Nat} (hi : i < provider.sessions.length) :
    provider.mutedAt i = false ↔
      ∃ session, provider.sessions[i]? = some session ∧ session.isMuted = false := by
  unfold Provider.mutedAt
  rw [List.getElem?_eq_getElem hi]
  simp

theorem Due.lt {k i : Nat} (h : Due resource table submits provider k i) :
    i < provider.sessions.length := by
  obtain ⟨session, hsession, _⟩ := h.session
  exact (List.getElem?_eq_some_iff.mp hsession).1

/-- A row that is due is submitted in the plan exactly where it is encoded. -/
theorem Due.mem_attempts_iff {k i : Nat} (h : Due resource table submits provider k i) :
    ⟨k, i, some .submitted⟩ ∈ attempts resource table submits provider ↔
      ∀ row, table.rows[k]? = some row → mapped resource row →
        indexed resource table row.2 := by
  have hturn : turnDelivery (provider.mutedAt i) (submits k i) = .submitted := by
    rw [(mutedAt_eq_false_iff h.lt).mpr h.session, h.submit]
    rfl
  obtain ⟨row, hrow, hmapped⟩ := h.row
  rw [mem_attempts]
  constructor
  · rintro ⟨row', hrow', _, ⟨_, _, hnone⟩ | ⟨hindexed, _⟩⟩ row'' hrow'' _
    · cases hnone
    · rw [hrow''] at hrow'
      cases hrow'
      exact hindexed
  · intro hindexed
    exact ⟨row, hrow, hmapped, Or.inr ⟨hindexed row hrow hmapped, h.lt, congrArg some hturn.symm⟩⟩

/-- How often a session was given a row, by the attempts that were made. -/
theorem turns_countP (config : Config) (table : Table) (getLock : Nat → Bool)
    (submits : Nat → Nat → Bool) (hready : provider.Ready resource) (k i : Nat) :
    (sendRefresh config resource table (submitting getLock submits) provider).2.provider.turns.countP
        (fun turn => turn.seen = (k, i, .submitted)) =
      (Faults.upto Attempt.fails (attempts resource table submits provider)).count
        ⟨k, i, some .submitted⟩ := by
  have hseen := sendRefresh_follows config table getLock submits hready
  have hcount := congrArg (List.countP (· = (k, i, Delivery.submitted))) hseen
  rw [List.countP_reverse, List.countP_filterMap] at hcount
  unfold Publish.seen Provider.seen at hcount
  rw [List.countP_map] at hcount
  refine hcount.trans (List.countP_congr fun attempt _ => ?_)
  obtain ⟨k', i', d⟩ := attempt
  cases d <;> simp [Attempt.seen, Attempt.mk.injEq]

/-- A row that is due is submitted once where no failed attempt is before it, and not at all
otherwise. -/
theorem submitted_once_iff (config : Config) (table : Table) (getLock : Nat → Bool)
    (submits : Nat → Nat → Bool) (hready : provider.Ready resource) (k i : Nat) :
    (sendRefresh config resource table (submitting getLock submits) provider).2.provider.turns.countP
        (fun turn => turn.seen = (k, i, .submitted)) = 1 ↔
      ⟨k, i, some .submitted⟩ ∈ attempts resource table submits provider ∧
        ∀ attempt ∈ attempts resource table submits provider,
          attempt.Before ⟨k, i, some .submitted⟩ → attempt.fails = false := by
  have hsorted := attempts_sorted resource table submits provider
  rw [turns_countP config table getLock submits hready,
    ← Faults.mem_upto_iff hsorted Attempt.Before.asymm]
  have hnodup : (Faults.upto Attempt.fails (attempts resource table submits provider)).Nodup := by
    refine (hsorted.sublist (Faults.upto_prefix _ _).sublist).imp fun {a b} hab heq => ?_
    subst heq
    exact Attempt.Before.asymm _ _ hab hab
  rw [hnodup.count]
  split <;> simp [*]

/-- The sessions are served independently exactly when nothing that fails comes before a row
that is due on a session. -/
theorem independent_iff (config : Config) (resource : Resource) (table : Table)
    (getLock : Nat → Bool) (submits : Nat → Nat → Bool) (provider : Provider)
    (hready : provider.Ready resource) :
    IndependentOnSend resource table submits provider
        (sendRefresh config resource table (submitting getLock submits) provider).2 ↔
      NoFailureBefore resource table submits provider := by
  refine forall_congr' fun k => forall_congr' fun i => forall_congr' fun hdue => ?_
  rw [submitted_once_iff config table getLock submits hready, hdue.mem_attempts_iff]
  constructor
  · rintro ⟨hencoded, hbefore⟩
    have hindexed : ∀ k' ≤ k, ∀ row, table.rows[k']? = some row → mapped resource row →
        indexed resource table row.2 := by
      intro k' hk' row hrow hmapped
      rcases Nat.lt_or_eq_of_le hk' with hlt | rfl
      · by_contra hno
        have hmem : ⟨k', 0, none⟩ ∈ attempts resource table submits provider :=
          mem_attempts.mpr ⟨row, hrow, hmapped, Or.inl ⟨hno, rfl, rfl⟩⟩
        cases hbefore _ hmem (Or.inl hlt)
      · exact hencoded row hrow hmapped
    refine ⟨hindexed, fun k' i' row session hrow hmapped hsession hmuted horder => ?_⟩
    have hi' := (List.getElem?_eq_some_iff.mp hsession).1
    have hle : k' ≤ k := by omega
    have hmem : ⟨k', i', some (turnDelivery (provider.mutedAt i') (submits k' i'))⟩ ∈
        attempts resource table submits provider :=
      mem_attempts.mpr ⟨row, hrow, hmapped, Or.inr ⟨hindexed k' hle row hrow hmapped, hi', rfl⟩⟩
    have hgood := hbefore _ hmem horder
    rw [(mutedAt_eq_false_iff hi').mpr ⟨session, hsession, hmuted⟩] at hgood
    cases hsubmit : submits k' i' with
    | true => rfl
    | false =>
      rw [hsubmit] at hgood
      cases hgood
  · rintro ⟨hindexed, hsubmits⟩
    refine ⟨hindexed k (Nat.le_refl k), fun attempt hattempt hbefore => ?_⟩
    obtain ⟨row, hrow, hmapped, ⟨hno, _⟩ | ⟨_, hi', hdelivery⟩⟩ := mem_attempts.mp hattempt
    · refine absurd (hindexed attempt.row ?_ row hrow hmapped) hno
      rcases hbefore with hlt | ⟨heq, _⟩
      · exact Nat.le_of_lt hlt
      · exact Nat.le_of_eq heq
    · unfold Attempt.fails
      rw [hdelivery]
      cases hmuted : provider.mutedAt attempt.session with
      | true => rfl
      | false =>
        obtain ⟨session, hsession, hopen⟩ := (mutedAt_eq_false_iff hi').mp hmuted
        rw [hsubmits _ _ row session hrow hmapped hsession hopen hbefore]
        rfl

/-! ## Two sessions -/

def oneRow : Table where
  columns := ["Sector".toList, "Buzz".toList]
  rows := [("1679".toList, [.real 1])]

/-- The provider after the login of two sessions. -/
def twoLoggedIn : Provider :=
  ((Provider.create 2 [sampleResource]).processEvents
    [(0, .loginResponse .open .ok {}), (1, .loginResponse .open .ok {})]).2

theorem twoLoggedIn_ready : twoLoggedIn.Ready sampleResource :=
  (create_ready 2 (List.mem_singleton_self sampleResource)).of_grows (processEvents_grows _ _)

/-- The submission on the first session throws: the second session never gets the row. -/
theorem second_session_not_served :
    ¬ IndependentOnSend sampleResource oneRow (fun _ i => decide (i = 1)) twoLoggedIn
      (sendRefresh sampleConfig sampleResource oneRow
        (submitting (fun _ => true) fun _ i => decide (i = 1)) twoLoggedIn).2 := by
  intro h
  have hdue : Due sampleResource oneRow (fun _ i => decide (i = 1)) twoLoggedIn 0 1 :=
    ⟨⟨("1679".toList, [.real 1]), rfl, rfl⟩, ⟨_, rfl, rfl⟩, rfl⟩
  have hone := h 0 1 hdue
  revert hone
  decide

/-- The submission on the second session throws: the first session has the row. -/
theorem first_session_served :
    IndependentOnSend sampleResource oneRow (fun _ i => decide (i = 0)) twoLoggedIn
      (sendRefresh sampleConfig sampleResource oneRow
        (submitting (fun _ => true) fun _ i => decide (i = 0)) twoLoggedIn).2 := by
  refine (independent_iff sampleConfig sampleResource oneRow (fun _ => true)
    (fun _ i => decide (i = 0)) twoLoggedIn twoLoggedIn_ready).mpr fun k i hdue => ?_
  have hi : i = 0 := of_decide_eq_true hdue.submit
  obtain ⟨row, hrow, _⟩ := hdue.row
  obtain ⟨hk, _⟩ := List.getElem?_eq_some_iff.mp hrow
  have hk : k < 1 := hk
  refine ⟨fun k' hk' row' hrow' _ => ?_, fun k' i' _ _ _ _ _ _ hbefore => by omega⟩
  obtain rfl : k' = 0 := by omega
  obtain rfl : ("1679".toList, [.real 1]) = row' := Option.some.inj hrow'
  decide

end Psych
