import Airspace.Common.Contracts
import Airspace.Common.Geodesy
import Airspace.Lib.Deque
import Airspace.Lib.Dict

/-! Did the aircraft go where it was predicted to (`acp.services.conformance.monitor`).

    Every update of a track enters its history window, is compared with the predictions that come due at
    it, and leaves a new prediction behind. The predictor is any function of the window; the physics
    baseline (`acp.ml.baselines`) is kept beside it as evidence. -/

namespace Airspace

noncomputable section

open Classical

/-! ### The physics baseline -/

/-- Where an aircraft is expected to be. -/
structure Prediction where
  lat : ℝ
  lon : ℝ
  altitudeFt : ℝ
  horizonS : ℝ

/-- The observable state a predictor is allowed to use. -/
structure KinematicState where
  lat : ℝ
  lon : ℝ
  altitudeFt : ℝ
  groundSpeedKt : ℝ
  trackDeg : ℝ
  verticalRateFpm : ℝ
  turnRateDegS : ℝ

def stateFrom (update : TrackUpdate) : KinematicState where
  lat := update.lat
  lon := update.lon
  altitudeFt := update.altitudeFt
  groundSpeedKt := update.groundSpeedKt
  trackDeg := update.trackDeg
  verticalRateFpm := update.verticalRateFpm
  turnRateDegS := update.turnRateDegS

/-- Constant velocity: hold this track, speed and vertical rate. -/
def deadReckon (state : KinematicState) (horizonS : ℝ) : Prediction :=
  let point := destinationPoint state.lat state.lon state.trackDeg
    (knotsToNmPerSecond state.groundSpeedKt * horizonS)
  { lat := point.1
    lon := point.2
    altitudeFt := max 0 (state.altitudeFt + fpmToFtPerSecond state.verticalRateFpm * horizonS)
    horizonS := horizonS }

/-! ### Predictions -/

inductive PredictionSource where | model | deadReckoning
  deriving DecidableEq

/-- A predicted position and where it came from. -/
structure TrajectoryPrediction where
  lat : ℝ
  lon : ℝ
  altitudeFt : ℝ
  horizonS : ℝ
  source : PredictionSource
  predictorVersion : String

/-- `TrajectoryPredictor.predict` where no model artifact is installed: dead reckoning from the window's
    last update. -/
def physicsPredictor (horizonS : ℚ) (window : List TrackUpdate) : TrajectoryPrediction :=
  let version := "acp-residual-v1:physics"
  match window.getLast? with
  -- no window is empty when a prediction is made from it
  | none => ⟨0, 0, 0, horizonS, .deadReckoning, version⟩
  | some current =>
    let baseline := deadReckon (stateFrom current) horizonS
    { lat := baseline.lat
      lon := baseline.lon
      altitudeFt := baseline.altitudeFt
      horizonS := horizonS
      source := .deadReckoning
      predictorVersion := version }

/-- Typical prediction error per horizon, for the model and for physics. -/
structure Calibration where
  modelNm : Dict ℚ ℝ
  physicsNm : Dict ℚ ℝ

/-- The compiled figures a deployment without a calibration artifact uses. -/
def Calibration.fallback : Calibration where
  modelNm := ((Dict.empty.set 30 0.412).set 60 1.220).set 120 2.732
  physicsNm := ((Dict.empty.set 30 1.007).set 60 2.412).set 120 5.085

/-- A prediction waiting for the moment it can be checked. -/
structure PendingPrediction where
  validAt : Instant
  predictedAt : Instant
  lat : ℝ
  lon : ℝ
  altitudeFt : ℝ
  baselineLat : ℝ
  baselineLon : ℝ
  source : PredictionSource
  predictorVersion : String

/-- An aircraft that diverged from where it was predicted to be. -/
structure NonConformance where
  trackId : String
  callsign : Option String
  predictedAt : Instant
  horizonS : ℝ
  errorNm : ℝ
  baselineErrorNm : ℝ
  thresholdNm : ℝ
  predictorVersion : String
  usedModel : Bool

namespace NonConformance

variable (f : NonConformance)

def key : String := AlertKind.nonConformance.value ++ ":" ++ f.trackId

/-- Advisory, always. -/
def severity (_ : NonConformance) : Severity := .advisory

def reasonCodes : List String :=
  ["prediction_error_above_threshold",
    if f.usedModel then "model_prediction" else "physics_prediction_only"] ++
  if f.errorNm > f.thresholdNm * 2 then ["large_deviation"] else []

def summary : String :=
  displayName f.callsign f.trackId ++ " diverged " ++ formatFixed 1 f.errorNm ++ " NM from its " ++
  formatFixed 0 f.horizonS ++ " s prediction (threshold " ++ formatFixed 1 f.thresholdNm ++ " NM). " ++
  "Advisory only: no flight plan is available, so this may be an entirely normal manoeuvre."

def asEvidence : ConformanceEvidence where
  predictedAt := f.predictedAt
  horizonS := f.horizonS
  errorNm := f.errorNm
  baselineErrorNm := f.baselineErrorNm
  thresholdNm := f.thresholdNm
  predictorVersion := f.predictorVersion

end NonConformance

/-! ### The monitor -/

/-- `WINDOW`: history used per prediction, in updates. -/
def windowLength : ℕ := 20

/-- Predictions a queue holds at most. -/
def queueLength : ℕ := 256

/-- `MATCH_TOLERANCE_S`. -/
def matchToleranceS : ℚ := 3

/-- Predicts each track forward and checks the prediction when it matures. -/
structure ConformanceMonitor where
  predictor : List TrackUpdate → TrajectoryPrediction
  horizonS : ℚ := 60
  thresholdFactor : ℝ := 3
  minimumThresholdNm : ℝ := 1.5
  calibration : Calibration := Calibration.fallback
  windows : Dict String (Deque TrackUpdate windowLength) := Dict.empty
  pending : Dict String (Deque PendingPrediction queueLength) := Dict.empty

namespace ConformanceMonitor

variable (m : ConformanceMonitor)

/-- Deviation, in NM, beyond which this horizon counts as non-conforming. -/
def thresholdFor (usedModel : Bool) : ℝ :=
  let table := if usedModel then m.calibration.modelNm else m.calibration.physicsNm
  match table.get? m.horizonS with
  | none => m.minimumThresholdNm
  | some typical => max m.minimumThresholdNm (m.thresholdFactor * typical)

/-- The prediction can be compared with this update, or its moment has passed. -/
def due (update : TrackUpdate) (candidate : PendingPrediction) : Bool :=
  !decide (update.updatedAt < candidate.validAt - timedelta matchToleranceS)

/-- A popped prediction against the update; the worst deviation survives. -/
def judge (update : TrackUpdate) (finding : Option NonConformance) (candidate : PendingPrediction) :
    Option NonConformance :=
  if update.updatedAt > candidate.validAt + timedelta matchToleranceS then finding
  else
    let errorNm := haversineNm candidate.lat candidate.lon update.lat update.lon
    let baselineErrorNm := haversineNm candidate.baselineLat candidate.baselineLon update.lat update.lon
    let usedModel := decide (candidate.source = .model)
    let threshold := m.thresholdFor usedModel
    if errorNm > threshold ∧ ∀ f ∈ finding, errorNm > f.errorNm then
      some
        { trackId := update.trackId
          callsign := update.callsign
          predictedAt := candidate.predictedAt
          horizonS := m.horizonS
          errorNm := errorNm
          baselineErrorNm := baselineErrorNm
          thresholdNm := threshold
          predictorVersion := candidate.predictorVersion
          usedModel := usedModel }
    else finding

/-- Pop the predictions that are due, from the left, and judge each. -/
def checkMatured (update : TrackUpdate) : ConformanceMonitor × Option NonConformance :=
  match m.pending.get? update.trackId with
  | none => (m, none)
  | some queue =>
    ({ m with pending := m.pending.set update.trackId (queue.dropWhile (due update)) },
      (queue.items.takeWhile (due update)).foldl (m.judge update) none)

/-- The prediction a window leads to, made at its last update. -/
def predictionFrom (window : List TrackUpdate) (update : TrackUpdate) : PendingPrediction :=
  let prediction := m.predictor window
  let baseline := deadReckon (stateFrom update) m.horizonS
  { validAt := update.updatedAt + timedelta m.horizonS
    predictedAt := update.updatedAt
    lat := prediction.lat
    lon := prediction.lon
    altitudeFt := prediction.altitudeFt
    baselineLat := baseline.lat
    baselineLon := baseline.lon
    source := prediction.source
    predictorVersion := prediction.predictorVersion }

/-- The window of a track; empty if it has none. -/
def windowOf (trackId : String) : Deque TrackUpdate windowLength :=
  (m.windows.get? trackId).getD Deque.empty

/-- The queue of a track; empty if it has none. -/
def queueOf (trackId : String) : Deque PendingPrediction queueLength :=
  (m.pending.get? trackId).getD Deque.empty

def makePrediction (update : TrackUpdate) : ConformanceMonitor :=
  let prediction := m.predictionFrom (m.windowOf update.trackId).items update
  { m with pending := m.pending.set update.trackId ((m.queueOf update.trackId).append prediction) }

/-- Fold in an update, check any matured prediction, and make a new one. -/
def observe (update : TrackUpdate) : ConformanceMonitor × Option NonConformance :=
  let window := (m.windowOf update.trackId).append update
  let out := { m with windows := m.windows.set update.trackId window }.checkMatured update
  (out.1.makePrediction update, out.2)

/-- Drop state for tracks that no longer exist. -/
def forget (trackIds : List String) : ConformanceMonitor :=
  { m with windows := trackIds.foldl Dict.erase m.windows, pending := trackIds.foldl Dict.erase m.pending }

/-! ### What an update does -/

variable {m} {update : TrackUpdate}

/-- The finding of an update: the worst of the predictions due at it. -/
theorem finding_observe : (m.observe update).2 =
    ((m.queueOf update.trackId).items.takeWhile (due update)).foldl (m.judge update) none := by
  simp only [observe, checkMatured, queueOf]
  cases m.pending.get? update.trackId <;> rfl

/-- The window of a track after its update. -/
def windowAfter (m : ConformanceMonitor) (update : TrackUpdate) : Deque TrackUpdate windowLength :=
  (m.windowOf update.trackId).append update

/-- The queue of a track after its update: of what was due nothing is left, and a new prediction waits. -/
def queueAfter (m : ConformanceMonitor) (update : TrackUpdate) : Deque PendingPrediction queueLength :=
  ((m.queueOf update.trackId).dropWhile (due update)).append
    (m.predictionFrom (m.windowAfter update).items update)

/-- An update touches the window and the queue of its own track. -/
theorem observe_eq (m : ConformanceMonitor) (update : TrackUpdate) : (m.observe update).1 =
    { m with
      windows := m.windows.set update.trackId (m.windowAfter update)
      pending := m.pending.set update.trackId (m.queueAfter update) } := by
  have hwindow : ∀ w : Deque TrackUpdate windowLength, ∀ p,
      windowOf { m with windows := m.windows.set update.trackId w, pending := p } update.trackId = w := by
    intro w p
    simp [windowOf]
  simp only [observe, checkMatured, queueAfter]
  cases hget : m.pending.get? update.trackId with
  | none =>
    simp only [makePrediction, hwindow, queueOf, hget]
    rfl
  | some queue =>
    simp only [makePrediction, hwindow, queueOf, hget, Dict.get?_set, if_true, Dict.set_set]
    rfl

theorem windowOf_observe : (m.observe update).1.windowOf update.trackId = m.windowAfter update := by
  rw [observe_eq, windowOf, Dict.get?_set, if_pos rfl]
  rfl

theorem queueOf_observe : (m.observe update).1.queueOf update.trackId = m.queueAfter update := by
  rw [observe_eq, queueOf, Dict.get?_set, if_pos rfl]
  rfl

end ConformanceMonitor

end

end Airspace
