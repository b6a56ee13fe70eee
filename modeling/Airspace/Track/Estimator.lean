import Airspace.Common.Contracts
import Airspace.Lib.Dict
import Airspace.Track.Kalman

/-! Turn surveillance reports into track state estimates (`acp.services.track.estimator`).

    One record per aircraft address, with its filter. A report initiates a track or corrects it, a
    sweep ages every track against the clock: silence makes a track coast and then terminate. An update
    built at a moment later than the last report is built by running the filter forward to it. -/

namespace Airspace

noncomputable section

/-- Mutable per-aircraft state held by the estimator. -/
structure TrackRecord where
  trackId : String
  icao24 : String
  callsign : Option String
  firstSeenAt : Instant
  lastReportAt : Instant
  filter : TrackFilter
  lat : ℝ
  lon : ℝ
  altitudeFt : ℝ
  groundSpeedKt : ℝ
  trackDeg : ℝ
  verticalRateFpm : ℝ
  turnRateDegS : ℝ
  positionUncertaintyM : ℝ
  velocityUncertaintyKt : ℝ
  altitudeUncertaintyFt : ℝ
  verticalRateUncertaintyFpm : ℝ
  innovationNm : ℝ
  squawk : Option String
  scenarioId : Option String
  updateCount : ℕ := 0
  state : TrackState := .initiating
  terminated : Bool := false

/-- One track per address, derived rather than generated. -/
def trackIdFor (icao24 : String) : String := "trk-" ++ icao24

/-- Maintains one track per aircraft address. -/
structure TrackEstimator where
  tracks : Dict String TrackRecord := Dict.empty
  coastAfterS : ℚ := 5
  terminateAfterS : ℚ := 30
  confirmationUpdates : ℕ := 3
  tuning : FilterTuning := {}

/-- `a or b` on optional strings: an empty string counts as none. -/
def stringOr (a b : Option String) : Option String :=
  match a with
  | some s => if s = "" then b else some s
  | none => b

namespace TrackEstimator

variable (e : TrackEstimator)

def initiate (report : SurveillanceReport) : TrackRecord :=
  let ref := referenceFor report.lat report.lon
  let filter := TrackFilter.init ref.1 ref.2 report.lat report.lon (report.altitudeBaroFt.getD 0)
    (report.groundSpeedKt.getD 0) (report.trackDeg.getD 0) (report.verticalRateFpm.getD 0) e.tuning
  let estimate := filter.estimate
  { trackId := trackIdFor report.icao24
    icao24 := report.icao24
    callsign := report.callsign
    firstSeenAt := report.observedAt
    lastReportAt := report.observedAt
    filter := filter
    lat := estimate.lat
    lon := estimate.lon
    altitudeFt := estimate.altitudeFt
    groundSpeedKt := estimate.groundSpeedKt
    trackDeg := estimate.trackDeg
    verticalRateFpm := estimate.verticalRateFpm
    turnRateDegS := 0
    positionUncertaintyM := estimate.positionUncertaintyM
    velocityUncertaintyKt := estimate.velocityUncertaintyKt
    altitudeUncertaintyFt := estimate.altitudeUncertaintyFt
    verticalRateUncertaintyFpm := estimate.verticalRateUncertaintyFpm
    innovationNm := 0
    squawk := report.squawk
    scenarioId := report.scenarioId
    updateCount := 1
    state := .initiating }

/-- Fold a report into a record; one that is not newer than the last is dropped. -/
def update (record : TrackRecord) (report : SurveillanceReport) : TrackRecord :=
  let dtS := totalSeconds (report.observedAt - record.lastReportAt)
  if dtS ≤ 0 then record
  else
    let filter := record.filter.update dtS report.lat report.lon report.altitudeBaroFt
      report.groundSpeedKt report.trackDeg report.verticalRateFpm
    let estimate := filter.estimate
    let updateCount := record.updateCount + 1
    { record with
      filter := filter
      -- the turn rate comes from the filtered headings
      turnRateDegS := bearingDifferenceDeg record.trackDeg estimate.trackDeg / dtS
      lat := estimate.lat
      lon := estimate.lon
      altitudeFt := estimate.altitudeFt
      groundSpeedKt := estimate.groundSpeedKt
      trackDeg := estimate.trackDeg
      verticalRateFpm := estimate.verticalRateFpm
      positionUncertaintyM := estimate.positionUncertaintyM
      velocityUncertaintyKt := estimate.velocityUncertaintyKt
      altitudeUncertaintyFt := estimate.altitudeUncertaintyFt
      verticalRateUncertaintyFpm := estimate.verticalRateUncertaintyFpm
      innovationNm := estimate.innovationNm
      squawk := stringOr report.squawk record.squawk
      callsign := stringOr report.callsign record.callsign
      lastReportAt := report.observedAt
      updateCount := updateCount
      state := if updateCount ≥ e.confirmationUpdates then .confirmed else .initiating }

/-- The filter run forward to `instant` on prediction alone, if `instant` is past the last report. -/
def coast (record : TrackRecord) (instant : Instant) : TrackRecord :=
  let stalenessS := max 0 (totalSeconds (instant - record.lastReportAt))
  if stalenessS > 0 then
    let filter := record.filter.predict stalenessS
    let estimate := filter.estimate
    { record with
      filter := filter
      lat := estimate.lat
      lon := estimate.lon
      altitudeFt := estimate.altitudeFt
      positionUncertaintyM := estimate.positionUncertaintyM
      velocityUncertaintyKt := estimate.velocityUncertaintyKt
      altitudeUncertaintyFt := estimate.altitudeUncertaintyFt
      verticalRateUncertaintyFpm := estimate.verticalRateUncertaintyFpm }
  else record

/-- `_to_update`: the record as it is left behind, and the update built from it, before it is validated. -/
def toUpdate (record : TrackRecord) (instant : Instant) : TrackRecord × TrackUpdate :=
  let record := coast record instant
  (record,
    { trackId := record.trackId
      icao24 := record.icao24
      callsign := record.callsign
      updatedAt := instant
      lastReportAt := record.lastReportAt
      state := record.state
      lat := record.lat
      lon := record.lon
      altitudeFt := record.altitudeFt
      groundSpeedKt := max 0 record.groundSpeedKt
      trackDeg := pyMod record.trackDeg 360
      verticalRateFpm := record.verticalRateFpm
      turnRateDegS := record.turnRateDegS
      positionUncertaintyM := record.positionUncertaintyM
      velocityUncertaintyKt := some record.velocityUncertaintyKt
      altitudeUncertaintyFt := some record.altitudeUncertaintyFt
      verticalRateUncertaintyFpm := some record.verticalRateUncertaintyFpm
      updateCount := record.updateCount
      innovationNm := some record.innovationNm
      squawk := record.squawk
      source := .simulator
      scenarioId := record.scenarioId })

/-- Fold one report into its track and return the resulting estimate, if its validation does not raise. -/
def onReport (report : SurveillanceReport) : TrackEstimator × TrackUpdate :=
  let record := match e.tracks.get? report.icao24 with
    | none => e.initiate report
    | some existing => if existing.terminated then e.initiate report else e.update existing report
  let out := toUpdate record report.observedAt
  ({ e with tracks := e.tracks.set report.icao24 out.1 }, out.2)

/-- The body of the sweep: one record aged against the clock, and its update if its state changed. -/
def sweepRecord (now : Instant) (record : TrackRecord) : TrackRecord × Option TrackUpdate :=
  if record.terminated then (record, none)
  else
    let silenceS := totalSeconds (now - record.lastReportAt)
    let aged :=
      if silenceS ≥ e.terminateAfterS then { record with state := .terminated, terminated := true }
      else if silenceS ≥ e.coastAfterS then { record with state := .coasting }
      else record
    if aged.state ≠ record.state then
      let out := toUpdate aged now
      (out.1, some out.2)
    else (aged, none)

/-- Age every track against the clock and return those that changed state, if the validation of none of them
    raises. -/
def sweep (now : Instant) : TrackEstimator × List TrackUpdate :=
  ({ e with tracks := e.tracks.mapValues fun record => (e.sweepRecord now record).1 },
    e.tracks.values.filterMap fun record => (e.sweepRecord now record).2)

/-- Drop terminated tracks from memory; how many were removed. -/
def pruneTerminated (now : Instant) (olderThan : Span) : TrackEstimator × ℕ :=
  let cutoff := now - olderThan
  let stale (record : TrackRecord) : Bool := record.terminated && decide (record.lastReportAt < cutoff)
  ({ e with tracks := e.tracks.filterValues fun record => !stale record },
    (e.tracks.values.filter stale).length)

/-- Every aircraft this estimator still holds, terminated or not. -/
def knownAddresses : List String := e.tracks.keys

/-- `self._tracks.pop(icao24, None)`, counted if there was something. -/
def pop (acc : TrackEstimator × ℕ) (icao24 : String) : TrackEstimator × ℕ :=
  match acc.1.tracks.get? icao24 with
  | some _ => ({ acc.1 with tracks := acc.1.tracks.erase icao24 }, acc.2 + 1)
  | none => acc

/-- Forget these aircraft without terminating them; how many were held. -/
def release (addresses : List String) : TrackEstimator × ℕ := addresses.foldl pop (e, 0)

end TrackEstimator

end

end Airspace
