import Airspace.Conformance.Monitor
import Airspace.Ml.Baselines

/-! What a predictor is allowed to look at (`acp.ml.features`).

    A feature vector is computed from the last twenty updates of a track and from nothing else. It says how
    fast the aircraft flies, turns and climbs and how far it surprised the filter; it does not say where the
    aircraft is, nor which way it heads. -/

namespace Airspace

noncomputable section

/-! ### Statistics of a window -/

/-- `xs.mean()`. -/
def mean (xs : List ℝ) : ℝ := xs.sum / xs.length

/-- `xs.std()`: of the population. -/
def std (xs : List ℝ) : ℝ := √(mean (xs.map fun x => (x - mean xs) ^ 2))

/-- `xs.max()`, of a list that is not empty. -/
def maximum (xs : List ℝ) : ℝ := xs.tail.foldl max (xs.headD 0)

/-! ### Extraction -/

/-- Named in order: a model trained on one order and served another is wrong without an error. -/
def featureNames : List String :=
  ["ground_speed_kt", "vertical_rate_fpm", "turn_rate_deg_s", "altitude_kft", "position_uncertainty_m",
    "innovation_nm", "speed_change_kt", "heading_change_deg", "altitude_change_ft", "turn_rate_mean",
    "turn_rate_std", "turn_rate_abs_max", "vertical_rate_mean", "vertical_rate_std", "innovation_mean",
    "innovation_max", "is_climbing", "is_descending", "is_turning", "is_high_altitude"]

def nFeatures : ℕ := featureNames.length

/-- A vertical rate below this reads as level flight. -/
def levelFpm : ℝ := 300

/-- A turn rate below this reads as straight flight. -/
def straightDegS : ℝ := 0.15

/-- The kinematic state a baseline predictor is given. -/
def Baselines.stateFrom (update : TrackUpdate) : Baselines.KinematicState where
  lat := update.lat
  lon := update.lon
  altitudeFt := update.altitudeFt
  groundSpeedKt := update.groundSpeedKt
  trackDeg := update.trackDeg
  verticalRateFpm := update.verticalRateFpm
  turnRateDegS := update.turnRateDegS

/-- `float(condition)`. -/
def indicator (p : Prop) [Decidable p] : ℝ := if p then 1 else 0

open Classical in
/-- The features of updates that begin with `first` and end with `current`. -/
def featuresOf (first current : TrackUpdate) (recent : List TrackUpdate) : List ℝ :=
  let turnRates := recent.map (·.turnRateDegS)
  let verticalRates := recent.map (·.verticalRateFpm)
  -- a track that has only ever coasted has no innovation, which means no surprise
  let innovations := recent.map fun u => u.innovationNm.getD 0
  [current.groundSpeedKt,
    current.verticalRateFpm,
    current.turnRateDegS,
    current.altitudeFt / 1000,
    current.positionUncertaintyM,
    current.innovationNm.getD 0,
    current.groundSpeedKt - first.groundSpeedKt,
    bearingDifferenceDeg first.trackDeg current.trackDeg,
    current.altitudeFt - first.altitudeFt,
    mean turnRates,
    std turnRates,
    maximum (turnRates.map abs),
    mean verticalRates,
    std verticalRates,
    mean innovations,
    maximum innovations,
    indicator (current.verticalRateFpm > levelFpm),
    indicator (current.verticalRateFpm < -levelFpm),
    indicator (|current.turnRateDegS| > straightDegS),
    indicator (current.altitudeFt > 29000)]

/-- `extract`: the feature vector of a window of updates, oldest first; too short a window is rejected
    rather than padded. -/
def extract (window : List TrackUpdate) : Except String (List ℝ) :=
  if window.length < windowLength then
    .error ("need " ++ toString windowLength ++ " updates, got " ++ toString window.length)
  else
    let recent := window.drop (window.length - windowLength)
    match recent.head?, recent.getLast? with
    | some first, some current => .ok (featuresOf first current recent)
    -- twenty updates have a first and a last one
    | _, _ => .ok []

/-- A window of updates, and the vector it gives. -/
theorem exists_extract {window : List TrackUpdate} (h : windowLength ≤ window.length) :
    ∃ first current, (window.drop (window.length - windowLength)).head? = some first ∧
      window.getLast? = some current ∧
      extract window = .ok (featuresOf first current (window.drop (window.length - windowLength))) := by
  have hlength : (window.drop (window.length - windowLength)).length = windowLength := by
    rw [List.length_drop]
    omega
  have hne : window.drop (window.length - windowLength) ≠ [] := by
    rw [← List.length_pos_iff, hlength]
    decide
  have hwhole : window ≠ [] := fun hnil => hne (by rw [hnil, List.drop_nil])
  have hlast : (window.drop (window.length - windowLength)).getLast? = window.getLast? := by
    rw [List.getLast?_drop, if_neg]
    rw [List.length_drop] at hlength
    have : 0 < windowLength := by decide
    omega
  refine ⟨_, _, List.head?_eq_some_head hne, List.getLast?_eq_some_getLast hwhole, ?_⟩
  rw [extract, if_neg (not_lt.mpr h)]
  simp only [hlast, List.head?_eq_some_head hne, List.getLast?_eq_some_getLast hwhole]

/-- Only the last twenty updates matter. -/
theorem extract_append (older : List TrackUpdate) {window : List TrackUpdate} (h : windowLength ≤ window.length) :
    extract (older ++ window) = extract window := by
  have hlong : windowLength ≤ (older ++ window).length := by
    rw [List.length_append]
    omega
  have hrecent : (older ++ window).drop ((older ++ window).length - windowLength) =
      window.drop (window.length - windowLength) := by
    rw [List.length_append, Nat.add_sub_assoc h, List.drop_length_add_append]
  rw [extract, extract, if_neg (not_lt.mpr h), if_neg (not_lt.mpr hlong), hrecent]

/-! ### Elsewhere, and headed elsewhere -/

/-- The same update somewhere else, headed `turnDeg` further to the right. -/
def TrackUpdate.moved (place : ℝ × ℝ) (turnDeg : ℝ) (u : TrackUpdate) : TrackUpdate :=
  { u with lat := place.1, lon := place.2, trackDeg := normalizeBearing (u.trackDeg + turnDeg) }

/-- Turning both bearings leaves the turn between them. -/
theorem bearingDifferenceDeg_turned (fromDeg toDeg turnDeg : ℝ) :
    bearingDifferenceDeg (normalizeBearing (fromDeg + turnDeg)) (normalizeBearing (toDeg + turnDeg)) =
      bearingDifferenceDeg fromDeg toDeg := by
  obtain ⟨hmem, n, hn⟩ := bearingDifferenceDeg_spec fromDeg toDeg
  obtain ⟨i, hi⟩ := normalizeBearing_eq_add_turns (fromDeg + turnDeg)
  obtain ⟨j, hj⟩ := normalizeBearing_eq_add_turns (toDeg + turnDeg)
  refine bearingDifferenceDeg_eq (n := n + i - j) hmem ?_
  rw [hn, hi, hj]
  push_cast
  ring

/-- An update and the same one somewhere else, turned. -/
def MovedBy (turnDeg : ℝ) (u u' : TrackUpdate) : Prop := ∃ place, u' = u.moved place turnDeg

variable {turnDeg : ℝ} {window window' : List TrackUpdate}

/-- What moving an update leaves alone, it leaves alone along a window. -/
theorem map_moved {β : Type} {f : TrackUpdate → β} (hf : ∀ u place, f (u.moved place turnDeg) = f u)
    (h : List.Forall₂ (MovedBy turnDeg) window window') : window'.map f = window.map f := by
  induction h with
  | nil => rfl
  | cons hmoved _ ih =>
    obtain ⟨place, rfl⟩ := hmoved
    rw [List.map_cons, List.map_cons, hf, ih]

theorem featuresOf_moved {first current first' current' : TrackUpdate} (hfirst : MovedBy turnDeg first first')
    (hcurrent : MovedBy turnDeg current current') (h : List.Forall₂ (MovedBy turnDeg) window window') :
    featuresOf first' current' window' = featuresOf first current window := by
  obtain ⟨place, rfl⟩ := hfirst
  obtain ⟨place', rfl⟩ := hcurrent
  have hturn := map_moved (f := (·.turnRateDegS)) (fun _ _ => rfl) h
  have hclimb := map_moved (f := (·.verticalRateFpm)) (fun _ _ => rfl) h
  have hsurprise := map_moved (f := fun u => u.innovationNm.getD 0) (fun _ _ => rfl) h
  have hheading := bearingDifferenceDeg_turned first.trackDeg current.trackDeg turnDeg
  simp only [featuresOf, hturn, hclimb, hsurprise, TrackUpdate.moved, hheading]
  rfl

theorem moved_of_head {first first' : TrackUpdate} (h : List.Forall₂ (MovedBy turnDeg) window window')
    (hfirst : window.head? = some first) (hfirst' : window'.head? = some first') :
    MovedBy turnDeg first first' := by
  cases h with
  | nil => cases hfirst
  | cons hmoved _ =>
    cases hfirst
    cases hfirst'
    exact hmoved

/-- Features say neither where an aircraft is nor which way it heads: a window flown anywhere else, each
    update at its own place, and turned as a whole has the same features. -/
theorem extract_moved (h : List.Forall₂ (MovedBy turnDeg) window window') :
    extract window' = extract window := by
  rcases lt_or_ge window.length windowLength with hshort | hlong
  · rw [extract, extract, ← h.length_eq, if_pos hshort, if_pos hshort]
  · obtain ⟨first, current, hfirst, hcurrent, hextract⟩ := exists_extract hlong
    obtain ⟨first', current', hfirst', hcurrent', hextract'⟩ := exists_extract (h.length_eq ▸ hlong)
    rw [← h.length_eq] at hfirst' hextract'
    have hrecent := List.forall₂_drop (window.length - windowLength) h
    rw [List.getLast?_eq_head?_reverse] at hcurrent hcurrent'
    have hends := moved_of_head (List.forall₂_reverse_iff.mpr h) hcurrent hcurrent'
    rw [hextract, hextract', featuresOf_moved (moved_of_head hrecent hfirst hfirst') hends hrecent]

end

end Airspace
