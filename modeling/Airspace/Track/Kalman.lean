import Airspace.Common.Geodesy
import Mathlib.Analysis.SpecialFunctions.Complex.Arg
import Mathlib.LinearAlgebra.Matrix.NonsingularInverse

/-! Linear Kalman filter for aircraft state (`acp.services.track.kalman`).

    The state is east and north in nautical miles about a reference fixed at initiation, their
    velocities in knots, altitude in feet and vertical rate in feet per minute, with a covariance over
    the six. Prediction is constant velocity plus white-noise acceleration; a correction measures the
    fields the report contains and keeps the covariance in Joseph form.

        predict: x ← F x,  P ← F P Fᵀ + Q
        update:  predict, then x ← x + K (z - H x),  P ← (1 - K H) P (1 - K H)ᵀ + K R Kᵀ -/

namespace Airspace

noncomputable section

open Matrix

/-! Rows of the state. -/

abbrev StateRow := Fin 6

def rowEast : StateRow := 0

def rowNorth : StateRow := 1

def rowVEast : StateRow := 2

def rowVNorth : StateRow := 3

def rowAlt : StateRow := 4

def rowVRate : StateRow := 5

abbrev StateVector := StateRow → ℝ

abbrev StateMatrix := Matrix StateRow StateRow ℝ

/-- Noise assumptions. -/
structure FilterTuning where
  processNoiseAccelKtS : ℝ := 3
  processNoiseVerticalFpmS : ℝ := 60
  measurementPositionNm : ℝ := 30 / 1852
  measurementAltitudeFt : ℝ := 25
  measurementSpeedKt : ℝ := 2
  initialPositionNm : ℝ := 1
  initialVelocityKt : ℝ := 50
  initialAltitudeFt : ℝ := 200
  initialVerticalRateFpm : ℝ := 500

/-- Filter output in the units the rest of the system speaks. -/
structure FilterEstimate where
  lat : ℝ
  lon : ℝ
  altitudeFt : ℝ
  groundSpeedKt : ℝ
  trackDeg : ℝ
  verticalRateFpm : ℝ
  positionUncertaintyM : ℝ
  velocityUncertaintyKt : ℝ
  altitudeUncertaintyFt : ℝ
  verticalRateUncertaintyFpm : ℝ
  innovationNm : ℝ

/-- A constant-velocity Kalman filter for one aircraft. -/
structure TrackFilter where
  tuning : FilterTuning
  refLat : ℝ
  refLon : ℝ
  x : StateVector
  p : StateMatrix
  lastInnovationNm : ℝ

/-- One row of a measurement: the state row it observes, the value and its variance. -/
structure MeasuredRow where
  row : StateRow
  value : ℝ
  variance : ℝ

/-- `m[i, j] = v` on an array. -/
def setEntry (m : StateMatrix) (i j : StateRow) (v : ℝ) : StateMatrix :=
  fun a b => if a = i ∧ b = j then v else m a b

/-- East and north components of a speed along a heading. -/
def velocityOf (groundSpeedKt trackDeg : ℝ) : ℝ × ℝ :=
  (groundSpeedKt * Real.sin (radians trackDeg), groundSpeedKt * Real.cos (radians trackDeg))

/-- State transition over `dtS` seconds. -/
def transition (dtS : ℝ) : StateMatrix :=
  let f := (1 : StateMatrix)
  let f := setEntry f rowEast rowVEast (knotsToNmPerSecond 1 * dtS)
  let f := setEntry f rowNorth rowVNorth (knotsToNmPerSecond 1 * dtS)
  setEntry f rowAlt rowVRate (dtS / 60)

/-- Discrete white-noise acceleration. -/
def processNoise (t : FilterTuning) (dtS : ℝ) : StateMatrix :=
  let varA := t.processNoiseAccelKtS ^ 2
  let posPerKt := knotsToNmPerSecond 1
  let gpp := (0.5 * dtS ^ 2) * posPerKt
  let gvv := dtS
  let q := [(rowEast, rowVEast), (rowNorth, rowVNorth)].foldl (fun q pv =>
    let q := setEntry q pv.1 pv.1 (gpp * gpp * varA)
    let q := setEntry q pv.1 pv.2 (gpp * gvv * varA)
    let q := setEntry q pv.2 pv.1 (gpp * gvv * varA)
    setEntry q pv.2 pv.2 (gvv * gvv * varA)) (0 : StateMatrix)
  let varVa := t.processNoiseVerticalFpmS ^ 2
  let altGain := 0.5 * dtS ^ 2 / 60
  let q := setEntry q rowAlt rowAlt (altGain * altGain * varVa)
  let q := setEntry q rowAlt rowVRate (altGain * dtS * varVa)
  let q := setEntry q rowVRate rowAlt (altGain * dtS * varVa)
  setEntry q rowVRate rowVRate (dtS * dtS * varVa)

namespace TrackFilter

/-- `TrackFilter(...)`. -/
def init (refLat refLon lat lon altitudeFt groundSpeedKt trackDeg verticalRateFpm : ℝ)
    (tuning : FilterTuning) : TrackFilter :=
  let enu := toLocalEnu refLat refLon lat lon
  let v := velocityOf groundSpeedKt trackDeg
  { tuning := tuning
    refLat := refLat
    refLon := refLon
    x := ![enu.1, enu.2, v.1, v.2, altitudeFt, verticalRateFpm]
    p := diagonal ![tuning.initialPositionNm ^ 2, tuning.initialPositionNm ^ 2,
      tuning.initialVelocityKt ^ 2, tuning.initialVelocityKt ^ 2, tuning.initialAltitudeFt ^ 2,
      tuning.initialVerticalRateFpm ^ 2]
    lastInnovationNm := 0 }

/-- Propagate the state forward without a measurement. -/
def predict (f : TrackFilter) (dtS : ℝ) : TrackFilter :=
  if dtS ≤ 0 then f
  else
    let t := transition dtS
    { f with x := t *ᵥ f.x, p := t * f.p * tᵀ + processNoise f.tuning dtS }

/-- The rows of the measurement, from the fields that are present. -/
def measuredRows (f : TrackFilter) (lat lon : ℝ)
    (altitudeFt groundSpeedKt trackDeg verticalRateFpm : Option ℝ) : List MeasuredRow :=
  let t := f.tuning
  let enu := toLocalEnu f.refLat f.refLon lat lon
  [⟨rowEast, enu.1, t.measurementPositionNm ^ 2⟩, ⟨rowNorth, enu.2, t.measurementPositionNm ^ 2⟩] ++
  (match altitudeFt with
    | some alt => [⟨rowAlt, alt, t.measurementAltitudeFt ^ 2⟩]
    | none => []) ++
  (match groundSpeedKt, trackDeg with
    | some speed, some track =>
      let v := velocityOf speed track
      [⟨rowVEast, v.1, t.measurementSpeedKt ^ 2⟩, ⟨rowVNorth, v.2, t.measurementSpeedKt ^ 2⟩]
    | _, _ => []) ++
  (match verticalRateFpm with
    | some rate => [⟨rowVRate, rate, (t.measurementAltitudeFt * 4) ^ 2⟩]
    | none => [])

/-- `h`: each row of the measurement reads its row of the state. -/
def measurementMatrix (rows : List MeasuredRow) : Matrix (Fin rows.length) StateRow ℝ :=
  fun i j => if j = (rows.get i).row then 1 else 0

/-- `z - h @ x`. -/
def innovation (f : TrackFilter) (rows : List MeasuredRow) : Fin rows.length → ℝ :=
  fun i => (rows.get i).value - (measurementMatrix rows *ᵥ f.x) i

/-- `r`. -/
def measurementNoise (rows : List MeasuredRow) : Matrix (Fin rows.length) (Fin rows.length) ℝ :=
  diagonal fun i => (rows.get i).variance

/-- `s = h @ p @ h.T + r`. -/
def innovationCovariance (f : TrackFilter) (rows : List MeasuredRow) :
    Matrix (Fin rows.length) (Fin rows.length) ℝ :=
  measurementMatrix rows * f.p * (measurementMatrix rows)ᵀ + measurementNoise rows

/-- `gain = p @ h.T @ inv(s)`; `inv` of a singular matrix would raise. -/
def gain (f : TrackFilter) (rows : List MeasuredRow) : Matrix StateRow (Fin rows.length) ℝ :=
  f.p * (measurementMatrix rows)ᵀ * (innovationCovariance f rows)⁻¹

/-- `v[k]`. -/
def entry {n : ℕ} (v : Fin n → ℝ) (k : ℕ) : ℝ := if h : k < n then v ⟨k, h⟩ else 0

/-- The correction by a measurement. -/
def correct (f : TrackFilter) (rows : List MeasuredRow) : TrackFilter :=
  let innov := f.innovation rows
  let h := measurementMatrix rows
  let k := f.gain rows
  let a := 1 - k * h
  { f with
    lastInnovationNm := √(entry innov 0 ^ 2 + entry innov 1 ^ 2)
    x := f.x + k *ᵥ innov
    p := a * f.p * aᵀ + k * measurementNoise rows * kᵀ }

/-- Predict forward, then fold in whatever the report contained. -/
def update (f : TrackFilter) (dtS lat lon : ℝ)
    (altitudeFt groundSpeedKt trackDeg verticalRateFpm : Option ℝ) : TrackFilter :=
  let f := f.predict dtS
  f.correct (f.measuredRows lat lon altitudeFt groundSpeedKt trackDeg verticalRateFpm)

/-- `arctan2(y, x)`. -/
def arctan2 (y x : ℝ) : ℝ := Complex.arg ⟨x, y⟩

/-- Current best estimate, in the units the contracts use. -/
def estimate (f : TrackFilter) : FilterEstimate :=
  let pos := fromLocalEnu f.refLat f.refLon (f.x rowEast) (f.x rowNorth)
  let vEast := f.x rowVEast
  let vNorth := f.x rowVNorth
  let positionVarianceNm2 := f.p rowEast rowEast + f.p rowNorth rowNorth
  let velocityVarianceKt2 := 0.5 * (f.p rowVEast rowVEast + f.p rowVNorth rowVNorth)
  { lat := pos.1
    lon := pos.2
    altitudeFt := max 0 (f.x rowAlt)
    groundSpeedKt := √(vEast ^ 2 + vNorth ^ 2)
    trackDeg := normalizeBearing (degrees (arctan2 vEast vNorth))
    verticalRateFpm := f.x rowVRate
    positionUncertaintyM := √(max 0 positionVarianceNm2) * 1852
    velocityUncertaintyKt := √(max 0 velocityVarianceKt2)
    altitudeUncertaintyFt := √(max 0 (f.p rowAlt rowAlt))
    verticalRateUncertaintyFpm := √(max 0 (f.p rowVRate rowVRate))
    innovationNm := f.lastInnovationNm }

end TrackFilter

/-- The tangent-plane origin for a track starting here: the nearest whole degrees. -/
def referenceFor (lat lon : ℝ) : ℝ × ℝ := (pyRound lat, pyRound lon)

end

end Airspace
