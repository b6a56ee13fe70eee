import Airspace.Track.Runner
import Mathlib.Data.Finset.SDiff
import Mathlib.Data.Finset.Insert
import Mathlib.Logic.Function.Basic

/-! Who owns an aircraft, as told by what a service shows.

    An aircraft's origins are the partitions its current track's reports came from. A partition is given
    up from the moment its release has returned until it is claimed. An aircraft with an origin that is
    given up is somebody else's: the service should neither speak for it to the topic nor touch its entry
    in the live picture. -/

namespace Airspace

/-- The origins of every aircraft and the partitions given up. -/
structure Ownership where
  origins : String → Finset ℕ := fun _ => ∅
  givenUp : Finset ℕ := ∅

namespace Ownership

/-- A report that starts a track makes its partition the only origin. -/
def see (h : Ownership) : RunnerEvent → Ownership
  | .accepted report partition initiated =>
    { h with
      origins := Function.update h.origins report.icao24
        (if initiated then {partition} else insert partition (h.origins report.icao24)) }
  | .releasedPartitions partitions => { h with givenUp := h.givenUp ∪ partitions }
  | .claimedPartitions partitions => { h with givenUp := h.givenUp \ partitions }
  | _ => h

def after (h : Ownership) (log : List RunnerEvent) : Ownership := log.foldl see h

theorem after_append (h : Ownership) (log later : List RunnerEvent) :
    h.after (log ++ later) = (h.after log).after later := List.foldl_append ..

/-- Some of the track's reports came from a partition that is given up. -/
def Foreign (h : Ownership) (icao24 : String) : Prop := ∃ p ∈ h.origins icao24, p ∈ h.givenUp

/-- The event speaks for the aircraft: it ends its track, or writes or deletes its live entry. -/
def SpeaksFor (icao24 : String) : RunnerEvent → Prop
  | .published u => u.icao24 = icao24 ∧ u.state = .terminated
  | .liveWritten batch => ∃ u ∈ batch, u.icao24 = icao24
  | .forgotten trackIds => trackIdFor icao24 ∈ trackIds
  | _ => False

/-- Nobody else's aircraft is spoken for. -/
def Proper (h : Ownership) : List RunnerEvent → Prop
  | [] => True
  | event :: later => (∀ icao24, SpeaksFor icao24 event → ¬ h.Foreign icao24) ∧ (h.see event).Proper later

variable {h : Ownership} {log later : List RunnerEvent}

theorem proper_append : h.Proper (log ++ later) ↔ h.Proper log ∧ (h.after log).Proper later := by
  induction log generalizing h with
  | nil => simp [Proper, after]
  | cons event log ih => simp only [List.cons_append, Proper, ih, and_assoc, after, List.foldl_cons]

/-- An event of a proper log speaks for nobody who is foreign when it is shown. -/
theorem Proper.not_foreign (hlog : h.Proper log) {before : List RunnerEvent} {event : RunnerEvent}
    (heq : log = before ++ event :: later) {icao24 : String} (hspeaks : SpeaksFor icao24 event) :
    ¬ (h.after before).Foreign icao24 := by
  rw [heq, proper_append] at hlog
  exact hlog.2.1 icao24 hspeaks

/-- What is foreign after a claim was so before it. -/
theorem Foreign.before_claim {partitions : Finset ℕ} {icao24 : String}
    (hf : (h.see (.claimedPartitions partitions)).Foreign icao24) : h.Foreign icao24 := by
  obtain ⟨p, hp, hgiven⟩ := hf
  exact ⟨p, hp, Finset.sdiff_subset hgiven⟩

end Ownership

end Airspace
