import Airspace.Common.PyFloat
import Mathlib.Analysis.SpecialFunctions.Complex.Arg

/-! Spherical-earth geometry and unit conversions (`acp.common.geodesy`).

    Great-circle distances and destinations, and a local projection to east/north nautical miles about a
    reference point. The longitude difference is wrapped to the shortest way round before it is scaled. -/

namespace Airspace

noncomputable section

/-- Mean earth radius in nautical miles. -/
def earthRadiusNm : ℝ := 3440.0695

/-- `math.radians`. -/
def radians (degrees : ℝ) : ℝ := degrees * Real.pi / 180

/-- `math.degrees`. -/
def degrees (radians : ℝ) : ℝ := radians * 180 / Real.pi

def knotsToNmPerSecond (knots : ℝ) : ℝ := knots / 3600

def fpmToFtPerSecond (fpm : ℝ) : ℝ := fpm / 60

/-- `math.atan2`. -/
def atan2 (y x : ℝ) : ℝ := Complex.arg ⟨x, y⟩

/-- Wrap any angle into `[0, 360)`. -/
def normalizeBearing (degrees : ℝ) : ℝ :=
  let wrapped := pyMod degrees 360
  if wrapped ≥ 360 then 0 else wrapped

/-- Signed shortest turn from one bearing to another, in `(-180, 180]`. -/
def bearingDifferenceDeg (fromDeg toDeg : ℝ) : ℝ :=
  let delta := pyMod (toDeg - fromDeg + 180) 360 - 180
  if delta ≤ -180 then delta + 360 else delta

/-- Wrap a longitude, or a longitude difference, into `[-180, 180)`. -/
def wrapLongitude (degrees : ℝ) : ℝ := pyMod (degrees + 180) 360 - 180

/-- Great-circle distance between two points, in nautical miles. -/
def haversineNm (lat1 lon1 lat2 lon2 : ℝ) : ℝ :=
  let phi1 := radians lat1
  let phi2 := radians lat2
  let dPhi := phi2 - phi1
  let dLambda := radians (lon2 - lon1)
  let a := Real.sin (dPhi / 2) ^ 2 + Real.cos phi1 * Real.cos phi2 * Real.sin (dLambda / 2) ^ 2
  2 * earthRadiusNm * Real.arcsin (min 1 √a)

/-- Initial true bearing along the great circle from the first point to the second, `0` where there is none. -/
def initialBearingDeg (lat1 lon1 lat2 lon2 : ℝ) : ℝ :=
  let phi1 := radians lat1
  let phi2 := radians lat2
  let dLambda := radians (lon2 - lon1)
  let y := Real.sin dLambda * Real.cos phi2
  let x := Real.cos phi1 * Real.sin phi2 - Real.sin phi1 * Real.cos phi2 * Real.cos dLambda
  if x = 0 ∧ y = 0 then 0 else normalizeBearing (degrees (atan2 y x))

/-- The point reached by travelling `distanceNm` along a bearing. -/
def destinationPoint (lat lon bearingDeg distanceNm : ℝ) : ℝ × ℝ :=
  let phi1 := radians lat
  let lambda1 := radians lon
  let theta := radians bearingDeg
  let delta := distanceNm / earthRadiusNm
  let sinPhi2 := Real.sin phi1 * Real.cos delta + Real.cos phi1 * Real.sin delta * Real.cos theta
  let phi2 := Real.arcsin (max (-1) (min 1 sinPhi2))
  let lambda2 := lambda1 + atan2 (Real.sin theta * Real.sin delta * Real.cos phi1)
    (Real.cos delta - Real.sin phi1 * Real.sin phi2)
  (degrees phi2, wrapLongitude (degrees lambda2))

/-- Dead-reckon a position forward at constant velocity. -/
def projectForward (lat lon trackDeg groundSpeedKt seconds : ℝ) : ℝ × ℝ :=
  destinationPoint lat lon trackDeg (knotsToNmPerSecond groundSpeedKt * seconds)

/-- Project a point to `(east, north)` nautical miles about a reference point. -/
def toLocalEnu (refLat refLon lat lon : ℝ) : ℝ × ℝ :=
  let dLon := wrapLongitude (lon - refLon)
  let meanLat := radians ((refLat + lat) / 2)
  let east := radians dLon * Real.cos meanLat * earthRadiusNm
  let north := radians (lat - refLat) * earthRadiusNm
  (east, north)

/-- Inverse of `toLocalEnu`. -/
def fromLocalEnu (refLat refLon eastNm northNm : ℝ) : ℝ × ℝ :=
  let lat := refLat + degrees (northNm / earthRadiusNm)
  let meanLat := radians ((refLat + lat) / 2)
  let cosMean := Real.cos meanLat
  if |cosMean| < 1e-12 then (lat, refLon)
  else
    let lon := refLon + degrees (eastNm / (earthRadiusNm * cosMean))
    (lat, wrapLongitude lon)

theorem normalizeBearing_mem (x : ℝ) : 0 ≤ normalizeBearing x ∧ normalizeBearing x < 360 := by
  obtain ⟨h0, h1⟩ := pyMod_mem x (show (0 : ℝ) < 360 by norm_num)
  simp only [normalizeBearing]
  rw [if_neg (not_le.mpr h1)]
  exact ⟨h0, h1⟩

/-- Wrapping an angle adds whole turns. -/
theorem normalizeBearing_eq_add_turns (x : ℝ) : ∃ n : ℤ, normalizeBearing x = x + n * 360 := by
  obtain ⟨-, h1⟩ := pyMod_mem x (show (0 : ℝ) < 360 by norm_num)
  refine ⟨-⌊x / 360⌋, ?_⟩
  simp only [normalizeBearing]
  rw [if_neg (not_le.mpr h1), pyMod]
  push_cast
  ring

/-- The shortest turn is the one between half a turn left and half a turn right. -/
theorem bearingDifferenceDeg_spec (fromDeg toDeg : ℝ) :
    (-180 < bearingDifferenceDeg fromDeg toDeg ∧ bearingDifferenceDeg fromDeg toDeg ≤ 180) ∧
      ∃ n : ℤ, bearingDifferenceDeg fromDeg toDeg = toDeg - fromDeg + n * 360 := by
  obtain ⟨h0, h1⟩ := pyMod_mem (toDeg - fromDeg + 180) (show (0 : ℝ) < 360 by norm_num)
  simp only [bearingDifferenceDeg]
  split_ifs with hhalf
  · refine ⟨⟨by linarith, by linarith⟩, 1 - ⌊(toDeg - fromDeg + 180) / 360⌋, ?_⟩
    rw [pyMod]
    push_cast
    ring
  · refine ⟨⟨not_le.mp hhalf, by linarith⟩, -⌊(toDeg - fromDeg + 180) / 360⌋, ?_⟩
    rw [pyMod]
    push_cast
    ring

/-- Two turns of less than half a turn each that differ by whole turns are one. -/
theorem eq_of_half_turns {x y : ℝ} (hx : -180 < x ∧ x ≤ 180) (hy : -180 < y ∧ y ≤ 180) {n : ℤ}
    (h : x = y + n * 360) : x = y := by
  have hlo : (-1 : ℝ) < n := by linarith [hx.1, hy.2]
  have hhi : (n : ℝ) < 1 := by linarith [hx.2, hy.1]
  have hn : n = 0 := by
    have hlo : (-1 : ℤ) < n := by exact_mod_cast hlo
    have hhi : n < (1 : ℤ) := by exact_mod_cast hhi
    omega
  rw [h, hn]
  simp

/-- A turn of at most half a turn that leads from one bearing to another is the shortest one. -/
theorem bearingDifferenceDeg_eq {fromDeg toDeg x : ℝ} (hx : -180 < x ∧ x ≤ 180) {n : ℤ}
    (h : x = toDeg - fromDeg + n * 360) : bearingDifferenceDeg fromDeg toDeg = x := by
  obtain ⟨hmem, m, hm⟩ := bearingDifferenceDeg_spec fromDeg toDeg
  refine eq_of_half_turns hmem hx (n := m - n) ?_
  rw [hm, h]
  push_cast
  ring

/-- Whole turns do not change a wrapped longitude. -/
theorem wrapLongitude_add_turns (x : ℝ) (n : ℤ) : wrapLongitude (x + n * 360) = wrapLongitude x := by
  unfold wrapLongitude
  rw [show x + n * 360 + 180 = x + 180 + n * 360 by ring, pyMod_add_mul _ (by norm_num)]

theorem wrapLongitude_eq_self {x : ℝ} (h0 : -180 ≤ x) (h1 : x < 180) : wrapLongitude x = x := by
  unfold wrapLongitude
  rw [pyMod_eq_self (by linarith) (by linarith)]; ring

/-- Wrapping a longitude adds whole turns. -/
theorem wrapLongitude_eq_add_turns (x : ℝ) : ∃ n : ℤ, wrapLongitude x = x + n * 360 := by
  refine ⟨-⌊(x + 180) / 360⌋, ?_⟩
  simp only [wrapLongitude, pyMod]
  push_cast
  ring

theorem wrapLongitude_mem (x : ℝ) : -180 ≤ wrapLongitude x ∧ wrapLongitude x < 180 := by
  obtain ⟨h0, h1⟩ := pyMod_mem (x + 180) (show (0 : ℝ) < 360 by norm_num)
  unfold wrapLongitude
  constructor <;> linarith

/-- Wherever one travels, the point reached is on the globe. -/
theorem destinationPoint_mem (lat lon bearingDeg distanceNm : ℝ) :
    (-90 ≤ (destinationPoint lat lon bearingDeg distanceNm).1 ∧
      (destinationPoint lat lon bearingDeg distanceNm).1 ≤ 90) ∧
      -180 ≤ (destinationPoint lat lon bearingDeg distanceNm).2 ∧
      (destinationPoint lat lon bearingDeg distanceNm).2 < 180 := by
  have hlat : ∀ x : ℝ, -90 ≤ degrees (Real.arcsin x) ∧ degrees (Real.arcsin x) ≤ 90 := by
    intro x
    have hpi := Real.pi_pos
    have hlo := Real.neg_pi_div_two_le_arcsin x
    have hhi := Real.arcsin_le_pi_div_two x
    unfold degrees
    rw [le_div_iff₀ hpi, div_le_iff₀ hpi]
    constructor <;> linarith
  exact ⟨hlat _, wrapLongitude_mem _⟩

theorem fromLocalEnu_lat (refLat refLon eastNm northNm : ℝ) :
    (fromLocalEnu refLat refLon eastNm northNm).1 = refLat + degrees (northNm / earthRadiusNm) := by
  simp only [fromLocalEnu]
  split_ifs <;> rfl

/-- The longitude is the reference's own at a pole, and wrapped elsewhere. -/
theorem fromLocalEnu_lon_mem {refLon : ℝ} (h : -180 ≤ refLon ∧ refLon ≤ 180) (refLat eastNm northNm : ℝ) :
    -180 ≤ (fromLocalEnu refLat refLon eastNm northNm).2 ∧
      (fromLocalEnu refLat refLon eastNm northNm).2 ≤ 180 := by
  simp only [fromLocalEnu]
  split_ifs
  · exact h
  · obtain ⟨h0, h1⟩ := wrapLongitude_mem (refLon + degrees (eastNm / (earthRadiusNm * Real.cos (radians
      ((refLat + (refLat + degrees (northNm / earthRadiusNm))) / 2)))))
    exact ⟨h0, h1.le⟩

/-- Projecting a latitude and back gives the latitude. -/
theorem lat_toLocalEnu (refLat refLon lat lon : ℝ) :
    refLat + degrees ((toLocalEnu refLat refLon lat lon).2 / earthRadiusNm) = lat := by
  have hpi := Real.pi_ne_zero
  simp only [toLocalEnu, degrees, radians, earthRadiusNm]
  field_simp
  ring

theorem earthRadiusNm_pos : 0 < earthRadiusNm := by norm_num [earthRadiusNm]

theorem ne_zero_of_off_pole {c : ℝ} (h : 1e-12 ≤ |c|) : c ≠ 0 := by
  intro hzero
  rw [hzero, abs_zero] at h
  norm_num at h

theorem degrees_radians (x : ℝ) : degrees (radians x) = x := by
  have hpi := Real.pi_ne_zero
  unfold degrees radians
  field_simp

theorem radians_ninety : radians 90 = Real.pi / 2 := by
  unfold radians
  ring

theorem radians_degrees (x : ℝ) : radians (degrees x) = x := by
  have hpi := Real.pi_ne_zero
  unfold degrees radians
  field_simp

/-- Away from the poles of the mean latitude, a place is its longitude difference, wrapped, further east. -/
theorem fromLocalEnu_toLocalEnu {refLat lat : ℝ} (refLon lon : ℝ)
    (hpole : 1e-12 ≤ |Real.cos (radians ((refLat + lat) / 2))|) :
    fromLocalEnu refLat refLon (toLocalEnu refLat refLon lat lon).1 (toLocalEnu refLat refLon lat lon).2 =
      (lat, wrapLongitude (refLon + wrapLongitude (lon - refLon))) := by
  have hcos := ne_zero_of_off_pole hpole
  have hearth := earthRadiusNm_pos.ne'
  have heast : (toLocalEnu refLat refLon lat lon).1 /
      (earthRadiusNm * Real.cos (radians ((refLat + lat) / 2))) = radians (wrapLongitude (lon - refLon)) := by
    simp only [toLocalEnu]
    field_simp
  simp only [fromLocalEnu]
  rw [lat_toLocalEnu, if_neg (not_lt.mpr hpole), heast, degrees_radians]

/-- Where it is not a pole of the mean latitude, the place an offset leads to. -/
theorem fromLocalEnu_eq {refLat refLon eastNm northNm : ℝ}
    (hpole : 1e-12 ≤ |Real.cos (radians ((refLat + (refLat + degrees (northNm / earthRadiusNm))) / 2))|) :
    fromLocalEnu refLat refLon eastNm northNm = (refLat + degrees (northNm / earthRadiusNm),
      wrapLongitude (refLon + degrees (eastNm / (earthRadiusNm *
        Real.cos (radians ((refLat + (refLat + degrees (northNm / earthRadiusNm))) / 2)))))) := by
  simp only [fromLocalEnu]
  rw [if_neg (not_lt.mpr hpole)]

/-- The projection and its inverse undo one another about any reference, on either side of the antimeridian:
    a place away from the poles of the mean latitude comes back with its longitude wrapped, and so does an
    offset that leads to such a place less than half a turn of longitude away. -/
theorem localEnu_inverse (refLat refLon : ℝ) :
    (∀ lat lon, 1e-12 ≤ |Real.cos (radians ((refLat + lat) / 2))| →
      fromLocalEnu refLat refLon (toLocalEnu refLat refLon lat lon).1 (toLocalEnu refLat refLon lat lon).2 =
        (lat, wrapLongitude lon)) ∧
    ∀ eastNm northNm,
      1e-12 ≤ |Real.cos (radians ((refLat + (fromLocalEnu refLat refLon eastNm northNm).1) / 2))| →
      |degrees (eastNm / (earthRadiusNm *
        Real.cos (radians ((refLat + (fromLocalEnu refLat refLon eastNm northNm).1) / 2))))| < 180 →
      toLocalEnu refLat refLon (fromLocalEnu refLat refLon eastNm northNm).1
        (fromLocalEnu refLat refLon eastNm northNm).2 = (eastNm, northNm) := by
  refine ⟨fun lat lon hpole => ?_, fun eastNm northNm hpole hhalf => ?_⟩
  · obtain ⟨n, hn⟩ := wrapLongitude_eq_add_turns (lon - refLon)
    rw [fromLocalEnu_toLocalEnu refLon lon hpole, hn, ← wrapLongitude_add_turns lon n]
    ring_nf
  · rw [fromLocalEnu_lat] at hpole hhalf
    have hcos := ne_zero_of_off_pole hpole
    have hearth := earthRadiusNm_pos.ne'
    rw [fromLocalEnu_eq hpole]
    set lat := refLat + degrees (northNm / earthRadiusNm) with hlat
    set dLon := degrees (eastNm / (earthRadiusNm * Real.cos (radians ((refLat + lat) / 2)))) with hdLon
    obtain ⟨n, hn⟩ := wrapLongitude_eq_add_turns (refLon + dLon)
    have hwrap : wrapLongitude (wrapLongitude (refLon + dLon) - refLon) = dLon := by
      rw [hn, show refLon + dLon + n * 360 - refLon = dLon + n * 360 by ring, wrapLongitude_add_turns]
      exact wrapLongitude_eq_self (abs_lt.mp hhalf).1.le (abs_lt.mp hhalf).2
    have hnorth : radians (lat - refLat) = northNm / earthRadiusNm := by
      rw [hlat, add_sub_cancel_left, radians_degrees]
    simp only [toLocalEnu]
    rw [hwrap, hnorth, hdLon, radians_degrees]
    congr 1
    · field_simp
    · field_simp

/-- Two places either side of the antimeridian, and the offset between them. -/
theorem localEnu_inverse_antimeridian :
    fromLocalEnu 0 179 (toLocalEnu 0 179 0 (-179)).1 (toLocalEnu 0 179 0 (-179)).2 = (0, -179) ∧
      toLocalEnu 0 179 (fromLocalEnu 0 179 (earthRadiusNm * radians 2) 0).1
        (fromLocalEnu 0 179 (earthRadiusNm * radians 2) 0).2 = (earthRadiusNm * radians 2, 0) := by
  have hlat : ∀ eastNm, (fromLocalEnu 0 179 eastNm 0).1 = 0 := by
    intro eastNm
    rw [fromLocalEnu_lat]
    simp [degrees]
  have hone : Real.cos (radians ((0 + 0) / 2)) = 1 := by simp [radians]
  obtain ⟨hplace, hoffset⟩ := localEnu_inverse 0 179
  constructor
  · rw [hplace 0 (-179) (by rw [hone]; norm_num), wrapLongitude_eq_self (by norm_num) (by norm_num)]
  · refine hoffset _ 0 (by rw [hlat, hone]; norm_num) ?_
    rw [hlat, hone, mul_one, mul_div_cancel_left₀ _ earthRadiusNm_pos.ne', degrees_radians]
    norm_num

/-- The projection sees the longitudes only through their wrapped difference. -/
theorem toLocalEnu_congr {refLat refLon refLon' lat lon lon' : ℝ}
    (h : wrapLongitude (lon - refLon) = wrapLongitude (lon' - refLon')) :
    toLocalEnu refLat refLon lat lon = toLocalEnu refLat refLon' lat lon' := by
  simp only [toLocalEnu, h]

end

end Airspace
