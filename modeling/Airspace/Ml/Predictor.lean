import Airspace.Lib.Dict
import Airspace.Lib.Float64
import Airspace.Ml.Features

/-! Serving trajectory predictions (`acp.ml.models`, `acp.ml.predictor`).

    A model corrects dead reckoning by a residual in the aircraft's own frame. The predictor serves whichever
    model was shipped, and physics where there is none, the window is too short, the model fails or its
    residual is not finite. It always answers and always says which of the two it answers with. -/

namespace Airspace

noncomputable section

/-! ### Models -/

def modelVersion : String := "acp-residual-v1"

def nTargets : ℕ := 3

/-- A correction of a dead-reckoning prediction. -/
@[ext] structure Residual where
  alongTrackNm : ℝ
  crossTrackNm : ℝ
  altitudeFt : ℝ

/-- A row of what a model answers, finite or not. -/
structure Output where
  alongTrackNm : Float64
  crossTrackNm : Float64
  altitudeFt : Float64

/-- The residual a row is, if `np.isfinite(row).all()`. -/
def Output.finite (row : Output) : Option Residual := do
  return { alongTrackNm := ← row.alongTrackNm.finite
           crossTrackNm := ← row.crossTrackNm.finite
           altitudeFt := ← row.altitudeFt.finite }

/-- A residual as a row. -/
def Residual.row (residual : Residual) : Output where
  alongTrackNm := .of residual.alongTrackNm
  crossTrackNm := .of residual.crossTrackNm
  altitudeFt := .of residual.altitudeFt

@[simp] theorem Residual.finite_row (residual : Residual) : residual.row.finite = some residual := by
  simp [row, Output.finite]

/-- What maps rows of features to rows of residuals. -/
abbrev RowPredictor := List (List ℝ) → Except String (List Output)

/-- Anything that can correct a dead-reckoning prediction. -/
structure ResidualModel where
  name : String
  predict : RowPredictor

/-- A row of numpy in operations with rows of so many columns. -/
def broadcast (columns : ℕ) (xs : List ℝ) : Except String (List ℝ) :=
  if xs.length = columns then .ok xs
  else
    match xs with
    | [x] => .ok (List.replicate columns x)
    | _ => .error "operands could not be broadcast together"

/-- Zero-mean, unit-variance scaling. -/
structure Standardiser where
  mean : List ℝ
  scale : List ℝ

open Classical in
/-- `Standardiser.fit`. A constant feature is left alone instead of divided by nothing. -/
def Standardiser.fit (features : List (List ℝ)) : Standardiser :=
  let columns := (List.range nFeatures).map fun i => features.map fun row => row.getD i 0
  { mean := columns.map Airspace.mean
    scale := columns.map fun column => if std column < 1e-9 then 1 else std column }

/-- `Standardiser.transform`: a scale of zero is not refused, and leaves nothing finite. -/
def Standardiser.transform (s : Standardiser) (features : List (List ℝ)) : Except String (List (List Float64)) := do
  let mean ← broadcast nFeatures s.mean
  let scale ← broadcast nFeatures s.scale
  return features.map fun row =>
    (row.zip (mean.zip scale)).map fun (x, m, k) => Float64.div (.of (x - m)) (.of k)

theorem broadcast_self {columns : ℕ} {xs : List ℝ} (h : xs.length = columns) : broadcast columns xs = .ok xs :=
  if_pos h

/-- A fitted scaling takes all rows. -/
theorem Standardiser.exists_transform_fit (fitted features : List (List ℝ)) :
    ∃ rows, (fit fitted).transform features = .ok rows ∧ rows.length = features.length := by
  have hmean : (fit fitted).mean.length = nFeatures := by simp [fit]
  have hscale : (fit fitted).scale.length = nFeatures := by simp [fit]
  rw [transform, broadcast_self hmean, broadcast_self hscale]
  exact ⟨_, rfl, List.length_map _⟩

/-- What the file of a model holds of its scaling; a key may be missing. -/
structure StandardiserPayload where
  mean : Option (List ℝ)
  scale : Option (List ℝ)

def Standardiser.toDict (s : Standardiser) : StandardiserPayload where
  mean := some s.mean
  scale := some s.scale

/-- A linear model on standardised features, with a weight for each target and feature. -/
structure RidgeResidualModel where
  standardiser : Standardiser
  coef : List (List ℝ)
  intercept : List ℝ
  shape : coef.length = nTargets ∧ ∀ row ∈ coef, row.length = nFeatures

/-- `_MLP`: the weights a network is saved by, and what they make of standardised rows. -/
structure Network (ν : Type) where
  stateDict : ν
  forward : List (List Float64) → List Output

/-- A network on standardised features, its targets scaled. -/
structure NeuralResidualModel (ν : Type) where
  standardiser : Standardiser
  net : Network ν
  targetScale : List ℝ
  epochsTrained : ℕ

variable {ν : Type}

/-- `scaled * target_scale`. -/
def Output.scaled (row : Output) (targetScale : List ℝ) : Output where
  alongTrackNm := .mul row.alongTrackNm (.of (targetScale.getD 0 0))
  crossTrackNm := .mul row.crossTrackNm (.of (targetScale.getD 1 0))
  altitudeFt := .mul row.altitudeFt (.of (targetScale.getD 2 0))

/-- `NeuralResidualModel.predict`. -/
def NeuralResidualModel.predict (m : NeuralResidualModel ν) : RowPredictor := fun features => do
  let rows ← m.standardiser.transform features
  let targetScale ← broadcast nTargets m.targetScale
  return (m.net.forward rows).map fun row => row.scaled targetScale

/-- A network, wearing the model API. -/
def NeuralResidualModel.toModel (m : NeuralResidualModel ν) : ResidualModel where
  name := "neural"
  predict := m.predict

/-! ### Artifacts -/

/-- The kinds of model that are shipped. -/
inductive ArtifactKind where | neural | ridge
  deriving DecidableEq

/-- What the file of a linear model holds; a key may be missing. -/
structure RidgePayload where
  modelVersion : Option String
  kind : Option String
  nFeatures : Option ℕ
  standardiser : Option StandardiserPayload
  coef : Option (List (List ℝ))
  intercept : Option (List ℝ)

/-- What the file of a network holds; a key may be missing. -/
structure NeuralPayload (ν : Type) where
  modelVersion : Option String
  kind : Option String
  stateDict : Option ν
  standardiser : Option StandardiserPayload
  targetScale : Option (List ℝ)
  epochsTrained : Option ℕ

/-- What a file of the models directory holds. -/
inductive Artifact (ν : Type) where
  | ridge (payload : RidgePayload)
  | neural (payload : NeuralPayload ν)
  | other

/-- What stops an artifact from being loaded. -/
inductive ArtifactError where
  | noStamp
  | trainedAs (stamped : String)
  | keyError (key : String)
  | coefficients
  | weights
  | unreadable
  | importError
  deriving DecidableEq

/-- `version_mismatch`: describe a version problem with an artifact, or nothing if it is fine. -/
def versionMismatch (stamped : Option String) : Option ArtifactError :=
  match stamped with
  | none => some .noStamp
  | some stamped => if stamped ≠ modelVersion then some (.trainedAs stamped) else none

/-- `payload[key]`. -/
def required {α : Type} (key : String) (value : Option α) : Except ArtifactError α :=
  value.elim (.error (.keyError key)) .ok

def Standardiser.fromDict (payload : StandardiserPayload) : Except ArtifactError Standardiser := do
  return { mean := ← required "mean" payload.mean
           scale := ← required "scale" payload.scale }

/-- `RidgeResidualModel.save`. -/
def RidgeResidualModel.save (m : RidgeResidualModel) : RidgePayload where
  modelVersion := some Airspace.modelVersion
  kind := some "ridge"
  nFeatures := some Airspace.nFeatures
  standardiser := some m.standardiser.toDict
  coef := some m.coef
  intercept := some m.intercept

/-- `NeuralResidualModel.save`. -/
def NeuralResidualModel.save (m : NeuralResidualModel ν) : NeuralPayload ν where
  modelVersion := some Airspace.modelVersion
  kind := some "neural"
  stateDict := some m.net.stateDict
  standardiser := some m.standardiser.toDict
  targetScale := some m.targetScale
  epochsTrained := some m.epochsTrained

/-- What is installed: whether torch and scikit-learn are, how scikit-learn applies a linear model to
    standardised rows, and the network torch makes of weights; none if they do not fit it. -/
structure Libraries (ν : Type) where
  torch : Bool
  sklearn : Bool
  linear : List (List ℝ) → List ℝ → List (List Float64) → Except String (List Output)
  loadStateDict : ν → Option (Network ν)

variable (libs : Libraries ν)

/-- Whether what a kind of model is loaded with is installed. -/
def Libraries.has : ArtifactKind → Bool
  | .neural => libs.torch
  | .ridge => libs.sklearn

/-- `RidgeResidualModel.predict`. -/
def RidgeResidualModel.predict (m : RidgeResidualModel) : RowPredictor := fun features => do
  let rows ← m.standardiser.transform features
  libs.linear m.coef m.intercept rows

/-- A linear model, wearing the model API. -/
def RidgeResidualModel.toModel (m : RidgeResidualModel) : ResidualModel where
  name := "ridge"
  predict := m.predict libs

/-- `RidgeResidualModel.load`, of a file that holds a payload. -/
def RidgeResidualModel.load (payload : RidgePayload) : Except ArtifactError RidgeResidualModel :=
  if !libs.has .ridge then .error .importError
  else
    match versionMismatch payload.modelVersion with
    | some problem => .error problem
    | none => do
      let coef ← required "coef" payload.coef
      -- a width check as well: a silent broadcast would be worse than a refusal
      if shape : coef.length = nTargets ∧ ∀ row ∈ coef, row.length = Airspace.nFeatures then
        let intercept ← required "intercept" payload.intercept
        let standardiser ← Standardiser.fromDict (← required "standardiser" payload.standardiser)
        return { standardiser := standardiser, coef := coef, intercept := intercept, shape := shape }
      else .error .coefficients

/-- `NeuralResidualModel.load`, imported only when it is needed. -/
def NeuralResidualModel.load (payload : NeuralPayload ν) : Except ArtifactError (NeuralResidualModel ν) :=
  if !libs.has .neural then .error .importError
  else
    match versionMismatch payload.modelVersion with
    | some problem => .error problem
    | none => do
      let stateDict ← required "state_dict" payload.stateDict
      match libs.loadStateDict stateDict with
      | none => .error .weights
      | some net =>
        let standardiser ← Standardiser.fromDict (← required "standardiser" payload.standardiser)
        let targetScale ← required "target_scale" payload.targetScale
        return { standardiser := standardiser, net := net, targetScale := targetScale,
                 epochsTrained := payload.epochsTrained.getD 0 }

/-! ### What is saved is loaded -/

theorem versionMismatch_stamped : versionMismatch (some modelVersion) = none := by simp [versionMismatch]

/-- A linear model is loaded as it was saved, where scikit-learn is installed. -/
theorem RidgeResidualModel.load_save (m : RidgeResidualModel) :
    load libs m.save = if libs.has .ridge then .ok m else .error .importError := by
  rw [load, save, versionMismatch_stamped]
  cases libs.has .ridge with
  | false => rfl
  | true => exact dif_pos m.shape

/-- A network is loaded as it was saved, where torch is installed and restores its weights. -/
theorem NeuralResidualModel.load_save (m : NeuralResidualModel ν)
    (hrestored : libs.loadStateDict m.net.stateDict = some m.net) :
    load libs m.save = if libs.has .neural then .ok m else .error .importError := by
  rw [load, save, versionMismatch_stamped]
  cases libs.has .neural with
  | false => rfl
  | true =>
    simp only [required, Option.elim_some, bind, Except.bind, hrestored]
    rfl

/-- The files of the models directory. -/
abbrev ModelsDir (ν : Type) := Dict String (Artifact ν)

/-- `int(x)`. -/
def wholeSeconds (x : ℚ) : ℤ := x.num.tdiv x.den

def neuralFile (horizonS : ℚ) : String := "residual_neural_" ++ toString (wholeSeconds horizonS) ++ "s.pt"

def ridgeFile (horizonS : ℚ) : String := "residual_ridge_" ++ toString (wholeSeconds horizonS) ++ "s.json"

/-- `_artifact_for`: the shipped artifact for a horizon, whichever kind won. -/
def artifactFor (dir : ModelsDir ν) (horizonS : ℚ) : Option (Artifact ν × ArtifactKind) :=
  match dir.get? (neuralFile horizonS), dir.get? (ridgeFile horizonS) with
  | some artifact, _ => some (artifact, .neural)
  | none, some artifact => some (artifact, .ridge)
  | none, none => none

/-- Load a file as the kind its name says. -/
def loadAs : Artifact ν → ArtifactKind → Except ArtifactError ResidualModel
  | .neural payload, .neural => (NeuralResidualModel.load libs payload).map NeuralResidualModel.toModel
  | .ridge payload, .ridge => (RidgeResidualModel.load libs payload).map (RidgeResidualModel.toModel libs)
  | _, .neural => if !libs.has .neural then .error .importError else .error .unreadable
  | _, .ridge => if !libs.has .ridge then .error .importError else .error .unreadable

/-- `TrajectoryPredictor._load`: nothing where no artifact is found or it cannot be loaded. -/
def loadModel (dir : ModelsDir ν) (horizonS : ℚ) : Option ResidualModel :=
  (artifactFor dir horizonS).bind fun found => (loadAs libs found.1 found.2).toOption

/-! ### The predictor -/

/-- Predicts a position at a fixed horizon from a window of track updates. -/
structure TrajectoryPredictor where
  horizonS : ℚ
  model : Option ResidualModel

/-- `TrajectoryPredictor(horizon_s, model=, models_dir=)`. -/
def TrajectoryPredictor.init (horizonS : ℚ) (model : Option ResidualModel) (dir : ModelsDir ν) :
    TrajectoryPredictor where
  horizonS := horizonS
  model := model.or (loadModel libs dir horizonS)

namespace TrajectoryPredictor

variable (p : TrajectoryPredictor)

def version : String :=
  match p.model with
  | some model => modelVersion ++ ":" ++ model.name
  | none => modelVersion ++ ":physics"

/-- `_as_prediction`. -/
def asPrediction (baseline : Baselines.Prediction) (source : PredictionSource) : TrajectoryPrediction where
  lat := baseline.lat
  lon := baseline.lon
  altitudeFt := baseline.altitudeFt
  horizonS := p.horizonS
  source := source
  predictorVersion := p.version

/-- The dead-reckoning prediction corrected by a residual. -/
def corrected (baseline : Baselines.Prediction) (trackDeg : ℝ) (residual : Residual) : TrajectoryPrediction :=
  let place := Baselines.applyAlongCross baseline residual.alongTrackNm residual.crossTrackNm trackDeg
  { lat := place.1
    lon := place.2
    altitudeFt := max 0 (baseline.altitudeFt + residual.altitudeFt)
    horizonS := p.horizonS
    source := .model
    predictorVersion := p.version }

/-- The first row of what a model answers to one window, if it is there and finite. -/
def residualOf (model : ResidualModel) (window : List TrackUpdate) : Option Residual :=
  match extract window with
  | .error _ => none
  | .ok features =>
    match model.predict [features] with
    | .error _ => none
    | .ok rows => rows.head?.bind Output.finite

/-- `_predict`: where the aircraft in this window will be at the horizon; an empty window is an error. -/
def predict (window : List TrackUpdate) : Option TrajectoryPrediction :=
  window.getLast?.map fun current =>
    let baseline := Baselines.deadReckon (Baselines.stateFrom current) p.horizonS
    match p.model with
    | none => p.asPrediction baseline .deadReckoning
    | some model =>
      if window.length < windowLength then p.asPrediction baseline .deadReckoning
      else
        match residualOf model window with
        | none => p.asPrediction baseline .deadReckoning
        | some residual => p.corrected baseline current.trackDeg residual

/-! ### What is served -/

variable {p} {window window' : List TrackUpdate} {current : TrackUpdate}

/-- The residual a window is corrected by, if it is. -/
def correction (p : TrajectoryPredictor) (window : List TrackUpdate) : Option Residual :=
  p.model.bind fun model => if window.length < windowLength then none else residualOf model window

/-- Dead reckoning from the last update, corrected by a residual if there is one. -/
def fromResidual (p : TrajectoryPredictor) (current : TrackUpdate) : Option Residual → TrajectoryPrediction
  | none => p.asPrediction (Baselines.deadReckon (Baselines.stateFrom current) p.horizonS) .deadReckoning
  | some residual => p.corrected (Baselines.deadReckon (Baselines.stateFrom current) p.horizonS)
      current.trackDeg residual

theorem predict_eq (h : window.getLast? = some current) :
    p.predict window = some (p.fromResidual current (p.correction window)) := by
  rw [predict, h, correction, Option.map_some]
  cases p.model with
  | none => rfl
  | some model =>
    by_cases hshort : window.length < windowLength
    · simp only [Option.bind_some, if_pos hshort]
      rfl
    · simp only [Option.bind_some, if_neg hshort]
      cases residualOf model window <;> rfl

/-- Only the last twenty updates correct a prediction. -/
theorem correction_append (older : List TrackUpdate) (h : windowLength ≤ window.length) :
    p.correction (older ++ window) = p.correction window := by
  have hlong : ¬ (older ++ window).length < windowLength := by
    rw [List.length_append]
    omega
  unfold correction residualOf
  simp only [extract_append older h, if_neg hlong, if_neg (not_lt.mpr h)]

/-- Where an aircraft is and which way it heads do not show in its correction. -/
theorem correction_moved {turnDeg : ℝ} (h : List.Forall₂ (MovedBy turnDeg) window window') :
    p.correction window' = p.correction window := by
  unfold correction residualOf
  rw [extract_moved h, h.length_eq]

/-- A position on the globe, and not below the ground. -/
structure Valid (prediction : TrajectoryPrediction) : Prop where
  lat : -90 ≤ prediction.lat ∧ prediction.lat ≤ 90
  lon : -180 ≤ prediction.lon ∧ prediction.lon < 180
  altitude : 0 ≤ prediction.altitudeFt

theorem valid_asPrediction {baseline : Baselines.Prediction} (h : baseline.Valid) (source : PredictionSource) :
    Valid (p.asPrediction baseline source) := ⟨h.lat, h.lon, h.altitude⟩

theorem valid_corrected {baseline : Baselines.Prediction} (h : baseline.Valid) (trackDeg : ℝ)
    (residual : Residual) : Valid (p.corrected baseline trackDeg residual) := by
  have hplace : (-90 ≤ (Baselines.applyAlongCross baseline residual.alongTrackNm residual.crossTrackNm
      trackDeg).1 ∧ (Baselines.applyAlongCross baseline residual.alongTrackNm residual.crossTrackNm
      trackDeg).1 ≤ 90) ∧ -180 ≤ (Baselines.applyAlongCross baseline residual.alongTrackNm
      residual.crossTrackNm trackDeg).2 ∧ (Baselines.applyAlongCross baseline residual.alongTrackNm
      residual.crossTrackNm trackDeg).2 < 180 := by
    simp only [Baselines.applyAlongCross]
    split_ifs
    · exact ⟨h.lat, h.lon⟩
    · exact destinationPoint_mem ..
  exact ⟨hplace.1, hplace.2, le_max_left ..⟩

theorem valid_fromResidual (current : TrackUpdate) (residual : Option Residual) :
    Valid (p.fromResidual current residual) := by
  have hbaseline := Baselines.deadReckon_valid (Baselines.stateFrom current) p.horizonS
  cases residual with
  | none => exact valid_asPrediction hbaseline .deadReckoning
  | some residual => exact valid_corrected hbaseline current.trackDeg residual

theorem source_fromResidual (current : TrackUpdate) (residual : Option Residual) :
    (p.fromResidual current residual).source = .model ↔ residual ≠ none := by
  cases residual with
  | none => exact iff_of_false nofun (not_not.mpr rfl)
  | some residual => exact iff_of_true rfl nofun

/-- A window is corrected by what the model answers first to its features, if that is finite. -/
theorem residualOf_iff {model : ResidualModel} {residual : Residual} :
    residualOf model window = some residual ↔ ∃ features row rest, extract window = .ok features ∧
      model.predict [features] = .ok (row :: rest) ∧ row.finite = some residual := by
  rw [residualOf]
  rcases extract window with _ | features
  · exact iff_of_false nofun fun ⟨_, _, _, hextract, _⟩ => nomatch hextract
  simp only [Except.ok.injEq, exists_eq_left', exists_and_left]
  rcases model.predict [features] with _ | rows
  · exact iff_of_false nofun fun ⟨_, _, hanswer, _⟩ => nomatch hanswer
  cases rows with
  | nil => exact iff_of_false nofun fun ⟨_, _, hanswer, _⟩ => nomatch hanswer
  | cons row rest => simp

theorem correction_iff {residual : Residual} :
    p.correction window = some residual ↔ ∃ model features row rest, p.model = some model ∧
      windowLength ≤ window.length ∧ extract window = .ok features ∧
      model.predict [features] = .ok (row :: rest) ∧ row.finite = some residual := by
  rw [correction, Option.bind_eq_some_iff]
  refine exists_congr fun model => ?_
  by_cases hshort : window.length < windowLength
  · simp [hshort]
  · simp only [if_neg hshort, residualOf_iff, not_lt.mp hshort, true_and, exists_and_left]

end TrajectoryPredictor

end

end Airspace
