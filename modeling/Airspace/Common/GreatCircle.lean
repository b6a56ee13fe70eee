import Airspace.Common.Geodesy
import Airspace.Lib.Sphere

/-! Great circles: distance, bearing and destination as one direction.

    The distance and the initial bearing to a place are the direction it is seen in, and the destination of
    a bearing and a distance is the place seen in that direction. Off the poles the two are therefore
    inverse, and bearings enter only through their cosine and sine. -/

namespace Airspace

noncomputable section

open Direction

variable {lat lon lat2 lon2 bearingDeg distanceNm : ℝ}

/-- The direction in which a place is seen from another. -/
def directionTo (lat1 lon1 lat2 lon2 : ℝ) : Direction :=
  seenFrom (radians lat1) (radians lat2) (radians (lon2 - lon1))

/-- A latitude short of the poles, in radians. -/
theorem radians_lat_mem (h : -90 < lat ∧ lat < 90) :
    -(Real.pi / 2) < radians lat ∧ radians lat < Real.pi / 2 := by
  have hpi := Real.pi_pos
  unfold radians
  constructor <;> nlinarith

theorem radians_add_turns (x : ℝ) (n : ℤ) : radians (x + n * 360) = radians x + n * (2 * Real.pi) := by
  unfold radians
  ring

theorem cos_radians_normalizeBearing (x : ℝ) :
    Real.cos (radians (normalizeBearing x)) = Real.cos (radians x) := by
  obtain ⟨n, hn⟩ := normalizeBearing_eq_add_turns x
  rw [hn, radians_add_turns, Real.cos_add_int_mul_two_pi]

theorem sin_radians_normalizeBearing (x : ℝ) :
    Real.sin (radians (normalizeBearing x)) = Real.sin (radians x) := by
  obtain ⟨n, hn⟩ := normalizeBearing_eq_add_turns x
  rw [hn, radians_add_turns, Real.sin_add_int_mul_two_pi]

theorem norm_mk (x y : ℝ) : ‖(⟨x, y⟩ : ℂ)‖ = √(x ^ 2 + y ^ 2) := by
  rw [Complex.norm_def, Complex.normSq_mk, sq, sq]

theorem sqrt_mul_cos_atan2 (y x : ℝ) : √(x ^ 2 + y ^ 2) * Real.cos (atan2 y x) = x := by
  rw [← norm_mk]
  exact Complex.norm_mul_cos_arg ⟨x, y⟩

theorem sqrt_mul_sin_atan2 (y x : ℝ) : √(x ^ 2 + y ^ 2) * Real.sin (atan2 y x) = y := by
  rw [← norm_mk]
  exact Complex.norm_mul_sin_arg ⟨x, y⟩

theorem haversineNm_eq (lat1 lon1 lat2 lon2 : ℝ) : haversineNm lat1 lon1 lat2 lon2 =
    earthRadiusNm * centralAngle (radians lat1) (radians lat2) (radians (lon2 - lon1)) := by
  simp only [haversineNm, centralAngle, hav]
  ring

/-- The initial bearing has the north and the east of the direction to the place. -/
theorem sqrt_mul_initialBearingDeg (lat1 lon1 lat2 lon2 : ℝ) :
    √((directionTo lat1 lon1 lat2 lon2).north ^ 2 + (directionTo lat1 lon1 lat2 lon2).east ^ 2) *
        Real.cos (radians (initialBearingDeg lat1 lon1 lat2 lon2)) = (directionTo lat1 lon1 lat2 lon2).north ∧
      √((directionTo lat1 lon1 lat2 lon2).north ^ 2 + (directionTo lat1 lon1 lat2 lon2).east ^ 2) *
        Real.sin (radians (initialBearingDeg lat1 lon1 lat2 lon2)) =
          (directionTo lat1 lon1 lat2 lon2).east := by
  have hbearing : initialBearingDeg lat1 lon1 lat2 lon2 =
      if (directionTo lat1 lon1 lat2 lon2).north = 0 ∧ (directionTo lat1 lon1 lat2 lon2).east = 0 then 0
      else normalizeBearing (degrees (atan2 (directionTo lat1 lon1 lat2 lon2).east
        (directionTo lat1 lon1 lat2 lon2).north)) := rfl
  rw [hbearing]
  split_ifs with hnone
  · simp [hnone.1, hnone.2]
  · rw [cos_radians_normalizeBearing, sin_radians_normalizeBearing, radians_degrees]
    exact ⟨sqrt_mul_cos_atan2 _ _, sqrt_mul_sin_atan2 _ _⟩

/-- Distance and initial bearing together are the direction to the place. -/
theorem polar_initialBearingDeg (lat1 lon1 lat2 lon2 : ℝ) :
    polar (haversineNm lat1 lon1 lat2 lon2 / earthRadiusNm)
      (radians (initialBearingDeg lat1 lon1 lat2 lon2)) = directionTo lat1 lon1 lat2 lon2 := by
  obtain ⟨hnorth, heast⟩ := sqrt_mul_initialBearingDeg lat1 lon1 lat2 lon2
  rw [haversineNm_eq, mul_div_cancel_left₀ _ earthRadiusNm_pos.ne']
  refine polar_centralAngle ?_ ?_
  · rw [sin_centralAngle]
    exact hnorth
  · rw [sin_centralAngle]
    exact heast

/-- The destination of a bearing and a distance is seen in that direction. -/
theorem directionTo_destinationPoint (hpole : -90 < lat ∧ lat < 90) (lon bearingDeg distanceNm : ℝ) :
    directionTo lat lon (destinationPoint lat lon bearingDeg distanceNm).1
      (destinationPoint lat lon bearingDeg distanceNm).2 =
        polar (distanceNm / earthRadiusNm) (radians bearingDeg) := by
  have hcos : 0 < Real.cos (radians lat) := Real.cos_pos_of_mem_Ioo (radians_lat_mem hpole)
  set sinPhi2 := Real.sin (radians lat) * Real.cos (distanceNm / earthRadiusNm) +
    Real.cos (radians lat) * Real.sin (distanceNm / earthRadiusNm) * Real.cos (radians bearingDeg) with hs
  have hsum : sinPhi2 = Real.sin (radians lat) * (polar (distanceNm / earthRadiusNm) (radians bearingDeg)).up +
      Real.cos (radians lat) * (polar (distanceNm / earthRadiusNm) (radians bearingDeg)).north := by
    rw [hs, mul_assoc (Real.cos (radians lat))]
    rfl
  obtain ⟨hlo, hhi⟩ := sin_lat_mem (radians lat) (polar (distanceNm / earthRadiusNm) (radians bearingDeg))
  rw [← hsum] at hlo hhi
  set y := Real.sin (radians bearingDeg) * Real.sin (distanceNm / earthRadiusNm) * Real.cos (radians lat)
    with hy
  set x := Real.cos (distanceNm / earthRadiusNm) - Real.sin (radians lat) * sinPhi2 with hx
  have hplace : destinationPoint lat lon bearingDeg distanceNm =
      (degrees (Real.arcsin sinPhi2), wrapLongitude (degrees (radians lon + atan2 y x))) := by
    simp only [destinationPoint]
    rw [← hs, min_eq_right hhi, max_eq_right hlo, Real.sin_arcsin hlo hhi]
  obtain ⟨n, hn⟩ := wrapLongitude_eq_add_turns (degrees (radians lon + atan2 y x))
  have hlon : radians (wrapLongitude (degrees (radians lon + atan2 y x)) - lon) =
      atan2 y x + n * (2 * Real.pi) := by
    rw [hn, add_sub_right_comm, radians_add_turns]
    congr 1
    simp only [radians, degrees]
    field_simp
    ring
  rw [hplace, directionTo, radians_degrees, hlon, seenFrom_add_turns]
  exact seenFrom_arcsin hcos hsum hx hy (sqrt_mul_cos_atan2 y x) (sqrt_mul_sin_atan2 y x)

/-- Two places in one direction are one place, away from the poles. -/
theorem eq_of_directionTo_eq (hlat : -90 < lat ∧ lat < 90) (hlat2 : -90 ≤ lat2 ∧ lat2 ≤ 90)
    {refLat refLon : ℝ} (h : directionTo refLat refLon lat lon = directionTo refLat refLon lat2 lon2) :
    lat = lat2 ∧ ∃ n : ℤ, lon = lon2 + n * 360 := by
  have hpi := Real.pi_pos
  have hrange : -(Real.pi / 2) ≤ radians lat2 ∧ radians lat2 ≤ Real.pi / 2 := by
    unfold radians
    constructor <;> nlinarith
  obtain ⟨heq, n, hn⟩ := seenFrom_inj (radians_lat_mem hlat) hrange h
  refine ⟨?_, n, ?_⟩
  · rw [← degrees_radians lat, heq, degrees_radians]
  · rw [← radians_add_turns] at hn
    have hdeg := congrArg degrees hn
    rw [degrees_radians, degrees_radians] at hdeg
    linarith

/-- A place seen in the direction of a bearing and a distance is their destination. -/
theorem destinationPoint_eq (hpole : -90 < lat ∧ lat < 90) (hlat2 : -90 < lat2 ∧ lat2 < 90)
    (h : polar (distanceNm / earthRadiusNm) (radians bearingDeg) = directionTo lat lon lat2 lon2) :
    destinationPoint lat lon bearingDeg distanceNm = (lat2, wrapLongitude lon2) := by
  obtain ⟨hlat, hlo, hhi⟩ := destinationPoint_mem lat lon bearingDeg distanceNm
  have hsame := (directionTo_destinationPoint hpole lon bearingDeg distanceNm).trans h
  obtain ⟨heq, n, hn⟩ := eq_of_directionTo_eq hlat2 hlat hsame.symm
  ext
  · exact heq.symm
  · rw [hn, wrapLongitude_add_turns, wrapLongitude_eq_self hlo hhi]

end

end Airspace
