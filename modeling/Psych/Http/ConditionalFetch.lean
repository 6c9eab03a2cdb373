import Psych.Http.Verdict
import Psych.Http.Request
import Psych.Model.Sample

/-!
# Rejected responses and the conditional fetch

`last_filetime` is what the next timer query sends as `If-Modified-Since`. It is stored
before the table of the response is looked at, so a response that is rejected for its
table has already moved it (`rejected_keeps_filetime_iff`): the server then answers 304
for a version that was never consumed.
-/

namespace Psych

/-- The response brings a file time the connection does not have, passes every check
before its table, and then its table is not accepted: the timestamp line does not read,
or the column line has no tab. -/
def takesUnreadFiletime (platform : Platform) (config : Config) (transfer : Transfer)
    (connection : Connection) : Prop :=
  reachesTable config transfer connection ∧ transfer.filetime ≠ -1 ∧
    transfer.filetime ≠ connection.lastFiletime ∧ tableAccepted platform connection.data = false

/-- After a rejected response the file time is what it was, and so is the
`If-Modified-Since` of the next request. -/
def RejectionKeepsFetch (platform : Platform) (config : Config) (transfer : Transfer)
    (connection : Connection) (stats : Stats) (engineVersion : Text) : Prop :=
  (respond platform config transfer connection stats engineVersion).1 = .ok false →
    (respond platform config transfer connection stats engineVersion).2.connection.lastFiletime =
        connection.lastFiletime ∧
      ∀ flags, (makeRequest config flags
          (respond platform config transfer connection stats engineVersion).2.connection).timeValue =
        (makeRequest config flags connection).timeValue

/-- A rejected response keeps the file time exactly when it does not bring a new file
time with a table that is not accepted. -/
theorem rejected_keeps_filetime_iff (platform : Platform) (config : Config) (transfer : Transfer)
    (connection : Connection) (stats : Stats) (engineVersion : Text) :
    RejectionKeepsFetch platform config transfer connection stats engineVersion ↔
      ¬ takesUnreadFiletime platform config transfer connection := by
  unfold RejectionKeepsFetch takesUnreadFiletime
  set r := respond platform config transfer connection stats engineVersion
  have hkeeps : r.2.connection.lastFiletime = connection.lastFiletime → ∀ flags,
      (makeRequest config flags r.2.connection).timeValue =
        (makeRequest config flags connection).timeValue := by
    intro h flags
    simp only [makeRequest, h]
  rcases respond_cases platform config transfer connection stats engineVersion with
    ⟨hnull, hundefined, _⟩ | ⟨_, hno, _, hconn⟩ | ⟨hreach, hfst, hconn, _⟩
  · -- a null content type was read, and none was there to be admissible
    constructor
    · exact fun _ h => absurd hnull (h.1.not_readsNull platform)
    · intro _ hfalse
      rw [hundefined] at hfalse
      cases hfalse
  · have hsame : r.2.connection.lastFiletime = connection.lastFiletime := by rw [hconn]
    exact ⟨fun _ h => hno h.1, fun _ _ => ⟨hsame, hkeeps hsame⟩⟩
  · have hafter : r.2.connection.lastFiletime = filetimeAfter transfer connection := by rw [hconn]
    have hrejected : r.1 = .ok false ↔ tableAccepted platform connection.data = false := by
      rw [hfst]
      cases tableAccepted platform connection.data <;>
        cases rendered platform transfer connection <;> simp
    constructor
    · rintro h ⟨_, hknown, hnew, hbad⟩
      have hkept := (h (hrejected.mpr hbad)).1
      rw [hafter, filetimeAfter, if_neg hknown] at hkept
      exact hnew hkept
    · intro h hfalse
      have hbad := hrejected.mp hfalse
      have hsame : r.2.connection.lastFiletime = connection.lastFiletime := by
        rw [hafter, filetimeAfter]
        split
        · rfl
        · rename_i hknown
          by_contra hne
          exact h ⟨hreach, hknown, hne, hbad⟩
      exact ⟨hsame, hkeeps hsame⟩

/-- A body cut after its first words is rejected, and its file time is stored. -/
theorem rejected_truncated_body_moves_filetime :
    ¬ RejectionKeepsFetch boostPlatform {}
      { responseCode := 200, contentType := some "text/plain".toList, filetime := 1336079940 }
      { resource := sampleResource, url := [], data := "# MarketPsych Engine".toList,
        requestPtime := some 1336080000000000 }
      (fun _ => 0) [] := by
  intro h
  have hkept := (h (by decide)).1
  exact absurd hkept (by decide)

end Psych
