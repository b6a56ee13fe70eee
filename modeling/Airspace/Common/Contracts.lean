import Airspace.Common.PyFloat

/-! Wire contracts for the topics (`acp.common.contracts`).

    The records carry every field of the messages but the constant `schema_version`. What the field
    validators of the source accept is the predicate `Admitted` on a record, so that a theorem about
    every message and a theorem about every admitted message can be told apart. -/

namespace Airspace

/-- Provenance of a message; there is one value. -/
inductive DataSource where | simulator
  deriving DecidableEq

/-- Lifecycle of a track inside the tracker. -/
inductive TrackState where | initiating | confirmed | coasting | terminated
  deriving DecidableEq

/-- What kind of condition was detected. -/
inductive AlertKind where | predictedConflict | nonConformance | emergencySquawk | excessiveDescent
  deriving DecidableEq

/-- The value of the enumeration, as it is written in keys. -/
def AlertKind.value : AlertKind → String
  | .predictedConflict => "predicted_conflict"
  | .nonConformance => "non_conformance"
  | .emergencySquawk => "emergency_squawk"
  | .excessiveDescent => "excessive_descent"

/-- Advisory severity. -/
inductive Severity where | info | advisory | caution | warning
  deriving DecidableEq

/-- Alert lifecycle. -/
inductive AlertState where | new | sustained | cleared
  deriving DecidableEq

/-- `^[0-9a-f]{6}$`. -/
def isIcao24 (s : String) : Bool :=
  s.length == 6 && s.toList.all (fun c => c.isDigit || ('a' ≤ c && c ≤ 'f'))

/-- `^[0-7]{4}$`. -/
def isSquawk (s : String) : Bool :=
  s.length == 4 && s.toList.all (fun c => '0' ≤ c && c ≤ '7')

/-- One position report for one aircraft, as observed by the sensor layer. -/
structure SurveillanceReport where
  reportId : String
  icao24 : String
  callsign : Option String := none
  observedAt : Instant
  lat : ℝ
  lon : ℝ
  altitudeBaroFt : Option ℝ := none
  groundSpeedKt : Option ℝ := none
  trackDeg : Option ℝ := none
  verticalRateFpm : Option ℝ := none
  squawk : Option String := none
  onGround : Bool := false
  source : DataSource := .simulator
  scenarioId : Option String := none

/-- What the validators of a report accept. -/
structure SurveillanceReport.Admitted (r : SurveillanceReport) : Prop where
  icao24 : isIcao24 r.icao24
  lat : -90 ≤ r.lat ∧ r.lat ≤ 90
  lon : -180 ≤ r.lon ∧ r.lon ≤ 180
  groundSpeedKt : ∀ v ∈ r.groundSpeedKt, 0 ≤ v
  trackDeg : ∀ d ∈ r.trackDeg, 0 ≤ d ∧ d < 360
  squawk : ∀ s ∈ r.squawk, isSquawk s

/-- A filtered state estimate for one aircraft. -/
structure TrackUpdate where
  trackId : String
  icao24 : String
  callsign : Option String := none
  updatedAt : Instant
  lastReportAt : Instant
  state : TrackState
  lat : ℝ
  lon : ℝ
  altitudeFt : ℝ
  groundSpeedKt : ℝ
  trackDeg : ℝ
  verticalRateFpm : ℝ
  turnRateDegS : ℝ
  positionUncertaintyM : ℝ
  updateCount : ℕ
  innovationNm : Option ℝ := none
  velocityUncertaintyKt : Option ℝ := none
  altitudeUncertaintyFt : Option ℝ := none
  verticalRateUncertaintyFpm : Option ℝ := none
  squawk : Option String := none
  source : DataSource := .simulator
  scenarioId : Option String := none

/-- What the validators of an update accept. -/
structure TrackUpdate.Admitted (u : TrackUpdate) : Prop where
  icao24 : isIcao24 u.icao24
  lat : -90 ≤ u.lat ∧ u.lat ≤ 90
  lon : -180 ≤ u.lon ∧ u.lon ≤ 180
  groundSpeedKt : 0 ≤ u.groundSpeedKt
  trackDeg : 0 ≤ u.trackDeg ∧ u.trackDeg < 360
  positionUncertaintyM : 0 ≤ u.positionUncertaintyM
  innovationNm : ∀ x ∈ u.innovationNm, 0 ≤ x
  velocityUncertaintyKt : ∀ x ∈ u.velocityUncertaintyKt, 0 ≤ x
  altitudeUncertaintyFt : ∀ x ∈ u.altitudeUncertaintyFt, 0 ≤ x
  verticalRateUncertaintyFpm : ∀ x ∈ u.verticalRateUncertaintyFpm, 0 ≤ x
  squawk : ∀ s ∈ u.squawk, isSquawk s

/-- `callsign or track_id`: an empty callsign counts as none. -/
def displayName (callsign : Option String) (trackId : String) : String :=
  match callsign with
  | some name => if name = "" then trackId else name
  | none => trackId

/-- Geometry behind a predicted loss of separation. -/
structure ConflictEvidence where
  timeToCpaS : ℝ
  minHorizontalSepNm : ℝ
  minVerticalSepFt : ℝ
  lookaheadS : ℝ
  horizontalStandardNm : ℝ
  verticalStandardFt : ℝ

/-- How far an aircraft diverged from where it was predicted to be. -/
structure ConformanceEvidence where
  predictedAt : Instant
  horizonS : ℝ
  errorNm : ℝ
  baselineErrorNm : ℝ
  thresholdNm : ℝ
  predictorVersion : String

/-- An advisory raised by the conformance service. -/
structure Alert where
  alertId : String
  alertKey : String
  kind : AlertKind
  severity : Severity
  state : AlertState
  raisedAt : Instant
  updatedAt : Instant
  trackIds : List String
  reasonCodes : List String
  summary : String
  conflict : Option ConflictEvidence := none
  conformance : Option ConformanceEvidence := none
  source : DataSource := .simulator
  scenarioId : Option String := none

/-- Noiseless simulator state, published for evaluation only. -/
structure TruthState where
  icao24 : String
  scenarioId : String
  simVersion : String
  validAt : Instant
  lat : ℝ
  lon : ℝ
  altitudeFt : ℝ
  groundSpeedKt : ℝ
  trackDeg : ℝ
  verticalRateFpm : ℝ
  phase : String

/-- What the validators of a truth state accept. -/
structure TruthState.Admitted (t : TruthState) : Prop where
  icao24 : isIcao24 t.icao24
  lat : -90 ≤ t.lat ∧ t.lat ≤ 90
  lon : -180 ≤ t.lon ∧ t.lon ≤ 180
  groundSpeedKt : 0 ≤ t.groundSpeedKt
  trackDeg : 0 ≤ t.trackDeg ∧ t.trackDeg < 360

end Airspace
