import Airspace.Common.Contracts
import Airspace.Lib.Dict

/-! Alert lifecycle: raise once, sustain while true, clear when it stops
    (`acp.services.conformance.alerts`).

    A detector's answers of one scan are folded into a table of active conditions. The first detection
    of a key raises, a repeated one is silent until the heartbeat is due, and a key that stays away for
    `clear_after_scans` scans in a row is cleared; a vanished track clears its alerts at once.
    `uuid4 n` is the `n`-th identifier the process draws. -/

namespace Airspace

/-- A detector's stateless answer for one condition at one instant. -/
structure Detection where
  key : String
  kind : AlertKind
  severity : Severity
  summary : String
  reasonCodes : List String
  trackIds : List String
  conflict : Option ConflictEvidence := none
  conformance : Option ConformanceEvidence := none
  scenarioId : Option String := none

/-- Bookkeeping for one condition currently being tracked. -/
structure Active where
  alertId : String
  raisedAt : Instant
  lastPublishedAt : Instant
  detection : Detection
  missedScans : ℕ := 0

/-- Turns repeated detections into an alert lifecycle. -/
structure AlertManager where
  active : Dict String Active := Dict.empty
  clearAfterScans : ℕ := 3
  sustainIntervalS : ℚ := 10
  /-- How many identifiers have been drawn so far. -/
  drawn : ℕ := 0

def render (active : Active) (detection : Detection) (state : AlertState) (now : Instant) : Alert where
  alertId := active.alertId
  alertKey := detection.key
  kind := detection.kind
  severity := detection.severity
  state := state
  raisedAt := active.raisedAt
  updatedAt := now
  trackIds := detection.trackIds
  reasonCodes := detection.reasonCodes
  -- the stored summary describes a condition that no longer holds
  summary := if state = .cleared then "Cleared: " ++ detection.summary else detection.summary
  conflict := detection.conflict
  conformance := detection.conformance
  source := .simulator
  scenarioId := detection.scenarioId

/-- `{detection.key: detection for detection in detections}`. -/
def currentByKey (detections : List Detection) : Dict String Detection :=
  detections.foldl (fun d detection => d.set detection.key detection) Dict.empty

namespace AlertManager

/-- The body of the loop over the current detections. -/
def raiseOrSustain (uuid4 : ℕ → String) (now : Instant) (acc : AlertManager × List Alert)
    (entry : String × Detection) : AlertManager × List Alert :=
  let (m, published) := acc
  let (key, detection) := entry
  match m.active.get? key with
  | none =>
    let active : Active :=
      { alertId := uuid4 m.drawn, raisedAt := now, lastPublishedAt := now, detection := detection }
    ({ m with active := m.active.set key active, drawn := m.drawn + 1 },
      published ++ [render active detection .new now])
  | some existing =>
    let existing := { existing with missedScans := 0, detection := detection }
    let sinceS := totalSeconds (now - existing.lastPublishedAt)
    if sinceS ≥ m.sustainIntervalS then
      let existing := { existing with lastPublishedAt := now }
      ({ m with active := m.active.set key existing },
        published ++ [render existing detection .sustained now])
    else ({ m with active := m.active.set key existing }, published)

/-- The body of the loop over the active keys, for the ones the scan did not detect. -/
def missOrClear (current : Dict String Detection) (now : Instant) (acc : AlertManager × List Alert)
    (key : String) : AlertManager × List Alert :=
  let (m, published) := acc
  if key ∈ current.keys then acc
  else
    match m.active.get? key with
    | none => acc
    | some active =>
      let active := { active with missedScans := active.missedScans + 1 }
      if active.missedScans ≥ m.clearAfterScans then
        ({ m with active := m.active.erase key },
          published ++ [render active active.detection .cleared now])
      else ({ m with active := m.active.set key active }, published)

/-- Fold one scan's detections into the lifecycle. -/
def reconcile (uuid4 : ℕ → String) (m : AlertManager) (detections : List Detection) (now : Instant) :
    AlertManager × List Alert :=
  let current := currentByKey detections
  let raised := current.items.foldl (raiseOrSustain uuid4 now) (m, [])
  raised.1.active.keys.foldl (missOrClear current now) raised

/-- The body of the loop of `forget`. -/
def forgetKey (gone : List String) (now : Instant) (acc : AlertManager × List Alert) (key : String) :
    AlertManager × List Alert :=
  let (m, cleared) := acc
  match m.active.get? key with
  | none => acc
  | some active =>
    if active.detection.trackIds.any (· ∈ gone) then
      ({ m with active := m.active.erase key },
        cleared ++ [render active active.detection .cleared now])
    else acc

/-- Clear alerts involving tracks that no longer exist. -/
def forget (m : AlertManager) (trackIds : List String) (now : Instant) : AlertManager × List Alert :=
  m.active.keys.foldl (forgetKey trackIds now) (m, [])

end AlertManager

end Airspace
