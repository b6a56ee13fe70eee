import Airspace.Common.GreatCircle

/-! Physics baselines and the residual a learned model predicts against them (`acp.ml.baselines`).

    A residual is the great-circle offset of the actual position from the predicted one, turned into the
    aircraft's own frame: along its track and across it, to the right. -/

namespace Airspace.Baselines

noncomputable section

open Direction

/-- Where an aircraft is expected to be, and when. -/
structure Prediction where
  lat : ℝ
  lon : ℝ
  altitudeFt : ℝ
  horizonS : ℝ

/-- The observable state a predictor is allowed to use. -/
structure KinematicState where
  lat : ℝ
  lon : ℝ
  altitudeFt : ℝ
  groundSpeedKt : ℝ
  trackDeg : ℝ
  verticalRateFpm : ℝ
  turnRateDegS : ℝ

/-- `math.hypot`. -/
def hypot (x y : ℝ) : ℝ := √(x ^ 2 + y ^ 2)

/-- Constant velocity: hold this track, speed and vertical rate. -/
def deadReckon (state : KinematicState) (horizonS : ℝ) : Prediction :=
  let place := destinationPoint state.lat state.lon state.trackDeg
    (knotsToNmPerSecond state.groundSpeedKt * horizonS)
  { lat := place.1, lon := place.2,
    altitudeFt := max 0 (state.altitudeFt + fpmToFtPerSecond state.verticalRateFpm * horizonS),
    horizonS := horizonS }

/-- Decompose a prediction error into along-track and cross-track nautical miles. -/
def alongCrossTrackError (reference : Prediction) (actualLat actualLon trackDeg : ℝ) : ℝ × ℝ :=
  let distance := haversineNm reference.lat reference.lon actualLat actualLon
  if distance < 1e-9 then (0, 0)
  else
    let bearing := initialBearingDeg reference.lat reference.lon actualLat actualLon
    let relative := radians (bearing - trackDeg)
    (distance * Real.cos relative, distance * Real.sin relative)

/-- Inverse of `alongCrossTrackError`: offset a point by a residual. -/
def applyAlongCross (reference : Prediction) (alongNm crossNm trackDeg : ℝ) : ℝ × ℝ :=
  let distance := hypot alongNm crossNm
  if distance < 1e-9 then (reference.lat, reference.lon)
  else
    let bearing := normalizeBearing (trackDeg + degrees (atan2 crossNm alongNm))
    destinationPoint reference.lat reference.lon bearing distance

/-- On the globe, and not below the ground. -/
structure Prediction.Valid (p : Prediction) : Prop where
  lat : -90 ≤ p.lat ∧ p.lat ≤ 90
  lon : -180 ≤ p.lon ∧ p.lon < 180
  altitude : 0 ≤ p.altitudeFt

theorem deadReckon_valid (state : KinematicState) (horizonS : ℝ) : (deadReckon state horizonS).Valid := by
  obtain ⟨hlat, hlon⟩ := destinationPoint_mem state.lat state.lon state.trackDeg
    (knotsToNmPerSecond state.groundSpeedKt * horizonS)
  exact ⟨hlat, hlon, le_max_left 0 _⟩

/-- A residual of nothing leaves the prediction untouched. -/
theorem applyAlongCross_zero (reference : Prediction) (trackDeg : ℝ) :
    applyAlongCross reference 0 0 trackDeg = (reference.lat, reference.lon) := by
  have hzero : hypot 0 0 = 0 := by simp [hypot]
  simp only [applyAlongCross, hzero]
  rw [if_pos (by norm_num)]

section Codec

variable {along cross distance relative trackDeg : ℝ}

/-- The length and the angle of a residual given by them. -/
theorem hypot_polar (h : 0 ≤ distance) (relative : ℝ) :
    hypot (distance * Real.cos relative) (distance * Real.sin relative) = distance := by
  have hsq : (distance * Real.cos relative) ^ 2 + (distance * Real.sin relative) ^ 2 = distance ^ 2 := by
    linear_combination distance ^ 2 * Real.sin_sq_add_cos_sq relative
  rw [hypot, hsq, Real.sqrt_sq h]

theorem hypot_mul_cos_atan2 (along cross : ℝ) : hypot along cross * Real.cos (atan2 cross along) = along :=
  sqrt_mul_cos_atan2 cross along

theorem hypot_mul_sin_atan2 (along cross : ℝ) : hypot along cross * Real.sin (atan2 cross along) = cross :=
  sqrt_mul_sin_atan2 cross along

theorem atan2_polar (h : 0 < distance) (relative : ℝ) :
    Real.cos (atan2 (distance * Real.sin relative) (distance * Real.cos relative)) = Real.cos relative ∧
      Real.sin (atan2 (distance * Real.sin relative) (distance * Real.cos relative)) = Real.sin relative := by
  have hcos := hypot_mul_cos_atan2 (distance * Real.cos relative) (distance * Real.sin relative)
  have hsin := hypot_mul_sin_atan2 (distance * Real.cos relative) (distance * Real.sin relative)
  rw [hypot_polar h.le] at hcos hsin
  exact ⟨mul_left_cancel₀ h.ne' hcos, mul_left_cancel₀ h.ne' hsin⟩

/-- The bearing flown for a residual is its angle to the right of the track. -/
theorem cos_sin_courseOf (trackDeg angle : ℝ) :
    Real.cos (radians (normalizeBearing (trackDeg + degrees angle))) = Real.cos (radians trackDeg + angle) ∧
      Real.sin (radians (normalizeBearing (trackDeg + degrees angle))) =
        Real.sin (radians trackDeg + angle) := by
  have hsum : radians (trackDeg + degrees angle) = radians trackDeg + angle := by
    rw [← radians_degrees angle, degrees_radians]
    simp only [radians]
    ring
  rw [cos_radians_normalizeBearing, sin_radians_normalizeBearing, hsum]
  exact ⟨rfl, rfl⟩

/-- Turning back by the track what was turned by it. -/
theorem cos_sin_relative {bearing angle : ℝ}
    (hcos : Real.cos (radians bearing) = Real.cos (radians trackDeg + angle))
    (hsin : Real.sin (radians bearing) = Real.sin (radians trackDeg + angle)) :
    Real.cos (radians (bearing - trackDeg)) = Real.cos angle ∧
      Real.sin (radians (bearing - trackDeg)) = Real.sin angle := by
  have hsub : radians (bearing - trackDeg) = radians bearing - radians trackDeg := by
    simp only [radians]
    ring
  have hback : Real.cos (radians trackDeg + angle - radians trackDeg) = Real.cos angle ∧
      Real.sin (radians trackDeg + angle - radians trackDeg) = Real.sin angle := by
    rw [add_sub_cancel_left]
    exact ⟨rfl, rfl⟩
  rw [hsub, Real.cos_sub, Real.sin_sub, hcos, hsin, ← Real.cos_sub, ← Real.sin_sub]
  exact hback

/-- The residual of a position leads back to it: away from the poles, and far enough to have a bearing. -/
theorem applyAlongCross_alongCrossTrackError {reference : Prediction} {actualLat actualLon : ℝ}
    (href : -90 < reference.lat ∧ reference.lat < 90) (hlat : -90 < actualLat ∧ actualLat < 90)
    (hfar : 1e-9 ≤ haversineNm reference.lat reference.lon actualLat actualLon) (trackDeg : ℝ) :
    applyAlongCross reference (alongCrossTrackError reference actualLat actualLon trackDeg).1
      (alongCrossTrackError reference actualLat actualLon trackDeg).2 trackDeg =
        (actualLat, wrapLongitude actualLon) := by
  have hpos : 0 < haversineNm reference.lat reference.lon actualLat actualLon := by linarith
  have hresidual : alongCrossTrackError reference actualLat actualLon trackDeg =
      (haversineNm reference.lat reference.lon actualLat actualLon * Real.cos (radians
        (initialBearingDeg reference.lat reference.lon actualLat actualLon - trackDeg)),
      haversineNm reference.lat reference.lon actualLat actualLon * Real.sin (radians
        (initialBearingDeg reference.lat reference.lon actualLat actualLon - trackDeg))) := by
    simp only [alongCrossTrackError]
    rw [if_neg (not_lt.mpr hfar)]
  set distance := haversineNm reference.lat reference.lon actualLat actualLon with hdistance
  set bearing := initialBearingDeg reference.lat reference.lon actualLat actualLon with hbearing
  set angle := atan2 (distance * Real.sin (radians (bearing - trackDeg)))
    (distance * Real.cos (radians (bearing - trackDeg))) with hangle
  obtain ⟨hcos, hsin⟩ := atan2_polar hpos (radians (bearing - trackDeg))
  obtain ⟨hcourse, hcourse'⟩ := cos_sin_courseOf trackDeg angle
  have hsum : radians bearing = radians trackDeg + radians (bearing - trackDeg) := by
    simp only [radians]
    ring
  rw [Real.cos_add, hcos, hsin, ← Real.cos_add, ← hsum] at hcourse
  rw [Real.sin_add, hcos, hsin, ← Real.sin_add, ← hsum] at hcourse'
  simp only [hresidual, applyAlongCross, hypot_polar hpos.le]
  rw [if_neg (not_lt.mpr hfar)]
  refine destinationPoint_eq href hlat ?_
  rw [polar_congr _ hcourse hcourse']
  exact polar_initialBearingDeg reference.lat reference.lon actualLat actualLon

/-- The position a residual leads to has that residual: off the poles, and short of the antipode. -/
theorem alongCrossTrackError_applyAlongCross {reference : Prediction}
    (href : -90 < reference.lat ∧ reference.lat < 90) (hfar : 1e-9 ≤ hypot along cross)
    (hhalf : hypot along cross < Real.pi * earthRadiusNm) (trackDeg : ℝ) :
    alongCrossTrackError reference (applyAlongCross reference along cross trackDeg).1
      (applyAlongCross reference along cross trackDeg).2 trackDeg = (along, cross) := by
  have hearth := earthRadiusNm_pos
  have hangle : 0 < hypot along cross / earthRadiusNm ∧ hypot along cross / earthRadiusNm < Real.pi :=
    ⟨div_pos (by linarith) hearth, (div_lt_iff₀ hearth).mpr hhalf⟩
  have hplace : applyAlongCross reference along cross trackDeg = destinationPoint reference.lat reference.lon
      (normalizeBearing (trackDeg + degrees (atan2 cross along))) (hypot along cross) := by
    simp only [applyAlongCross]
    rw [if_neg (not_lt.mpr hfar)]
  rw [hplace]
  have hseen := directionTo_destinationPoint href reference.lon
    (normalizeBearing (trackDeg + degrees (atan2 cross along))) (hypot along cross)
  set place := destinationPoint reference.lat reference.lon
    (normalizeBearing (trackDeg + degrees (atan2 cross along))) (hypot along cross)
  have hpolar := polar_initialBearingDeg reference.lat reference.lon place.1 place.2
  rw [haversineNm_eq, mul_div_cancel_left₀ _ hearth.ne'] at hpolar
  obtain ⟨hsame, hcos, hsin⟩ := polar_inj hangle (centralAngle_mem _ _ _) (hseen.symm.trans hpolar.symm)
  have hdistance : haversineNm reference.lat reference.lon place.1 place.2 = hypot along cross := by
    rw [haversineNm_eq, ← hsame, mul_div_cancel₀ _ hearth.ne']
  obtain ⟨hcourse, hcourse'⟩ := cos_sin_courseOf trackDeg (atan2 cross along)
  obtain ⟨hrel, hrel'⟩ := cos_sin_relative (hcos.symm.trans hcourse) (hsin.symm.trans hcourse')
  simp only [alongCrossTrackError, hdistance]
  rw [if_neg (not_lt.mpr hfar), hrel, hrel', hypot_mul_cos_atan2, hypot_mul_sin_atan2]

/-- The residual codec loses nothing. From a reference off the poles and for every track, the residual of a
    position off the poles leads back to it, its longitude wrapped, at the antipode too; and the position
    that a residual of less than half the earth's circumference leads to has that residual, at a pole too. -/
theorem residual_lossless (reference : Prediction) (trackDeg : ℝ)
    (href : -90 < reference.lat ∧ reference.lat < 90) :
    (∀ actualLat actualLon, -90 < actualLat ∧ actualLat < 90 →
      1e-9 ≤ haversineNm reference.lat reference.lon actualLat actualLon →
      applyAlongCross reference (alongCrossTrackError reference actualLat actualLon trackDeg).1
        (alongCrossTrackError reference actualLat actualLon trackDeg).2 trackDeg =
          (actualLat, wrapLongitude actualLon)) ∧
    ∀ along cross, 1e-9 ≤ hypot along cross → hypot along cross < Real.pi * earthRadiusNm →
      alongCrossTrackError reference (applyAlongCross reference along cross trackDeg).1
        (applyAlongCross reference along cross trackDeg).2 trackDeg = (along, cross) :=
  ⟨fun _ _ hlat hfar => applyAlongCross_alongCrossTrackError href hlat hfar trackDeg,
    fun _ _ hfar hhalf => alongCrossTrackError_applyAlongCross href hfar hhalf trackDeg⟩

/-- A quarter of the way round the equator, and a mile to the right of a reference on it. -/
theorem residual_lossless_equator :
    applyAlongCross ⟨0, 0, 0, 60⟩ (alongCrossTrackError ⟨0, 0, 0, 60⟩ 0 90 0).1
        (alongCrossTrackError ⟨0, 0, 0, 60⟩ 0 90 0).2 0 = (0, 90) ∧
      alongCrossTrackError ⟨0, 0, 0, 60⟩ (applyAlongCross ⟨0, 0, 0, 60⟩ 0 1 0).1
        (applyAlongCross ⟨0, 0, 0, 60⟩ 0 1 0).2 0 = (0, 1) := by
  obtain ⟨hplace, hresidual⟩ := residual_lossless ⟨0, 0, 0, 60⟩ 0 ⟨by norm_num, by norm_num⟩
  have hone : hypot 0 1 = 1 := by simp [hypot]
  have hpi := Real.two_le_pi
  constructor
  · rw [hplace 0 90 ⟨by norm_num, by norm_num⟩ ?_, wrapLongitude_eq_self (by norm_num) (by norm_num)]
    have hquarter : Real.cos (centralAngle (radians 0) (radians 0) (radians (90 - 0))) = 0 := by
      rw [cos_centralAngle]
      simp only [seenFrom, radians]
      rw [show (90 - 0) * Real.pi / 180 = Real.pi / 2 by ring]
      simp
    obtain ⟨h0, h1⟩ := centralAngle_mem (radians 0) (radians 0) (radians (90 - 0))
    have hangle : centralAngle (radians 0) (radians 0) (radians (90 - 0)) = Real.pi / 2 :=
      Real.injOn_cos ⟨h0, h1⟩ ⟨by linarith, by linarith⟩ (hquarter.trans Real.cos_pi_div_two.symm)
    rw [haversineNm_eq, hangle, earthRadiusNm]
    linarith
  · refine hresidual 0 1 (by rw [hone]; norm_num) ?_
    rw [hone, earthRadiusNm]
    linarith

end Codec

end

end Airspace.Baselines
